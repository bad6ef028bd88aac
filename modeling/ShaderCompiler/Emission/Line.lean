namespace ShaderCompiler

structure Line where
  depth : Nat
  text : String
  deriving DecidableEq, Repr

namespace Line

def nest (l : Line) : Line := { l with depth := l.depth + 1 }

def render (indent : String) (l : Line) : String :=
  String.join (List.replicate l.depth indent) ++ l.text ++ "\n"

def flat (text : String) : Line := ⟨0, text⟩

end Line

def Line.opened (opening : String) (body : List Line) : List Line :=
  .flat opening :: body.map nest

def renderLines (indent : String) (lines : List Line) : String :=
  String.join (lines.map (·.render indent))

end ShaderCompiler
