namespace ShaderCompiler.CommandLine

structure Failure where
  text : String
  causes : List String := []
  deriving DecidableEq, Repr

namespace Failure

/-- A text behind a margin; its further lines have a margin of their own. -/
def behind (first further text : String) : String :=
  first ++ String.intercalate ("\n" ++ further) (text.splitOn "\n")

def numeral (n : Nat) : String :=
  let digits := toString n
  String.ofList (List.replicate (5 - digits.length) ' ') ++ digits

def numbered : (n : Nat) → List String → List String
  | _, [] => []
  | n, cause :: rest => behind (numeral n ++ ": ") "       " cause :: numbered (n + 1) rest

def causeLines : List String → List String
  | [cause] => [behind "    " "    " cause]
  | causes => numbered 0 causes

def reason (causes : List String) : String :=
  if causes.isEmpty then ""
  else "\n\nCaused by:\n" ++ String.intercalate "\n" (causeLines causes)

def report (f : Failure) : String := "Error: " ++ f.text ++ reason f.causes ++ "\n"

end Failure

end ShaderCompiler.CommandLine
