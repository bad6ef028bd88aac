import ShaderCompiler.Toml.Value

namespace ShaderCompiler.Toml

def longestRun (c : Char) (cs : List Char) : Nat :=
  (cs.foldl (fun (run, longest) d =>
    let run := if d == c then run + 1 else 0
    (run, max run longest)) (0, 0)).2

def isControl (c : Char) : Bool :=
  c != '\t' && c != '\n' && (c.toNat < 0x20 || c.toNat == 0x7F)

def fourDigits (n : Nat) : List Char :=
  let ds := (Nat.toDigits 16 n).map Char.toUpper
  List.replicate (4 - ds.length) '0' ++ ds

/-- The escaped text between quotes. On several lines line breaks stand as they are, and so do two
quotes in a row; `quotes` counts those that just went before. -/
def escaped (long : Bool) : (quotes : Nat) → List Char → List Char
  | _, [] => []
  | quotes, '"' :: rest =>
      if long && quotes < 2 then '"' :: escaped long (quotes + 1) rest
      else '\\' :: '"' :: escaped long 0 rest
  | _, c :: rest =>
      let written :=
        if c == '\x08' then ['\\', 'b']
        else if c == '\t' then ['\\', 't']
        else if c == '\n' then if long then ['\n'] else ['\\', 'n']
        else if c == '\x0c' then ['\\', 'f']
        else if c == '\r' then ['\\', 'r']
        else if c == '\\' then ['\\', '\\']
        else if isControl c then '\\' :: 'u' :: fourDigits c.toNat
        else [c]
      written ++ escaped long 0 rest

/-- A line break after the opening quotes keeps the first line of a text on several lines apart. -/
def longText (quotes : String) (text : String) (body : List Char) : String :=
  quotes ++ (if text.toList.contains '\n' then "\n" else "") ++ String.ofList body ++ quotes

def basicText (text : String) : String :=
  "\"" ++ String.ofList (escaped false 0 text.toList) ++ "\""

def longBasicText (text : String) : String :=
  longText "\"\"\"" text (escaped true 0 text.toList)

def stringText (text : String) : String :=
  let cs := text.toList
  let control := cs.any isControl
  let backslash := cs.contains '\\'
  let breaks := cs.contains '\n'
  if !control && !backslash && longestRun '"' cs == 0 && !breaks then basicText text
  else if !control && longestRun '\'' cs == 0 && !breaks then "'" ++ text ++ "'"
  else if !control && !backslash && longestRun '"' cs ≤ 2 then longBasicText text
  else if !control && longestRun '\'' cs ≤ 2 then longText "'''" text cs
  else if breaks then longBasicText text
  else basicText text

def listText (items : List String) : String :=
  match items with
  | [] => "[]"
  | [item] => "[" ++ stringText item ++ "]"
  | items => "[\n" ++ String.join (items.map fun item => "    " ++ stringText item ++ ",\n") ++ "]"

def booleanText (b : Bool) : String := if b then "true" else "false"

end ShaderCompiler.Toml
