import ShaderCompiler.Toml.Value

namespace ShaderCompiler.Toml

def codePoint (count : Nat) : Scan Char := do
  let cs ← get
  let values := (cs.take count).filterMap hexValue?
  if values.length == count then
    let n := values.foldl (fun n d => n * 16 + d) 0
    if n.isValidChar then
      set (cs.drop count)
      return Char.ofNat n
    else failure
  else failure

def escape : Scan Char := do
  match ← Scan.one fun _ => true with
  | 'b' => return '\x08'
  | 't' => return '\t'
  | 'n' => return '\n'
  | 'f' => return '\x0c'
  | 'r' => return '\r'
  | 'e' => return '\x1b'
  | '"' => return '"'
  | '\\' => return '\\'
  | 'x' => codePoint 2
  | 'u' => codePoint 4
  | 'U' => codePoint 8
  | _ => failure

def lineBreak : Scan (List Char) := do
  if ← Scan.tryWord "\n" then return ['\n']
  else if ← Scan.tryWord "\r\n" then return ['\r', '\n']
  else return []

def basicBody : (fuel : Nat) → Scan (List Char)
  | 0 => failure
  | fuel + 1 => do
      match ← Scan.one fun _ => true with
      | '"' => return []
      | '\\' => return (← escape) :: (← basicBody fuel)
      | c => if isPlain c then return c :: (← basicBody fuel) else failure

def literalBody : Scan (List Char) := do
  let body ← Scan.while_ fun c => isPlain c && c != '\''
  Scan.word "'"
  return body

/-- Blanks and line breaks after a backslash at the end of a line are dropped. -/
def dropBreaks : List Char → List Char
  | '\r' :: '\n' :: rest => dropBreaks rest
  | '\n' :: rest => dropBreaks rest
  | c :: rest => if isBlank c then dropBreaks rest else c :: rest
  | [] => []

def joinsLines (cs : List Char) : Bool :=
  match cs.dropWhile isBlank with
  | '\n' :: _ => true
  | '\r' :: '\n' :: _ => true
  | _ => false

/-- The body up to three quotes; two more of them may stand before the end. -/
def longBody (quote : Char) (escapes : Bool) : (fuel : Nat) → Scan (List Char)
  | 0 => failure
  | fuel + 1 => do
      let three := String.ofList [quote, quote, quote]
      if ← Scan.tryWord three then
        if ← Scan.tryWord (String.ofList [quote, quote]) then return [quote, quote]
        else if ← Scan.tryWord (String.ofList [quote]) then return [quote]
        else return []
      else
        match ← lineBreak with
        | [] =>
            let c ← Scan.one isPlain
            if c == '\\' && escapes then
              if joinsLines (← get) then
                modify dropBreaks
                longBody quote escapes fuel
              else return (← escape) :: (← longBody quote escapes fuel)
            else return c :: (← longBody quote escapes fuel)
        | newline => return newline ++ (← longBody quote escapes fuel)

def long (quote : Char) (escapes : Bool) : Scan (List Char) := do
  let _ ← lineBreak
  longBody quote escapes ((← get).length + 1)

def shortString? : Scan (Option String) := do
  if ← Scan.tryWord "\"" then return String.ofList (← basicBody ((← get).length + 1))
  else if ← Scan.tryWord "'" then return String.ofList (← literalBody)
  else return none

def string? : Scan (Option String) := do
  if ← Scan.tryWord "\"\"\"" then return String.ofList (← long '"' true)
  else if ← Scan.tryWord "'''" then return String.ofList (← long '\'' false)
  else shortString?

end ShaderCompiler.Toml
