import ShaderCompiler.Tree.Basic
import ShaderCompiler.Vocabulary

namespace ShaderCompiler

structure ValueType where
  name : String
  array : Bool := false
  deriving DecidableEq, Repr

namespace ValueType

/-- Second spellings of vocabulary types become their GLSL spelling. -/
def named (name : String) : ValueType := ⟨(Vocabulary.toTarget? name).getD name, false⟩

def arrayOf (name : String) : ValueType := ⟨(Vocabulary.toTarget? name).getD name, true⟩

def ofRef (t : TypeRef) : ValueType := ⟨(Vocabulary.toTarget? t.name).getD t.name, t.array⟩

def ofKind (kind : ScalarKind) : ValueType := named kind.name

def shape? (t : ValueType) : Option Shape :=
  if t.array then none else (Vocabulary.lookup? t.name).map (·.shape)

def kind? (t : ValueType) : Option ScalarKind :=
  match t.shape? with
  | none | some .void | some .sampler => none
  | some _ => Vocabulary.scalarKind? t.name

def elementKind? (t : ValueType) : Option ScalarKind := (named t.name).kind?

def isIntegral (t : ValueType) : Bool := t.kind?.any ScalarKind.isIntegral

def element? (t : ValueType) : Option ValueType :=
  if t.array then some (named t.name)
  else
    match Vocabulary.scalarKind? t.name, t.shape? with
    | some kind, some (.vector _) => some (ofKind kind)
    | some kind, some (.matrix _ rows) => (Vocabulary.vectorOf? kind rows).map named
    | _, _ => none

def combine (lhs rhs : ValueType) : ValueType :=
  if lhs = rhs then lhs
  else
    match lhs.shape?, rhs.shape? with
    | some (.matrix _ _), some (.vector _) => rhs
    | some (.vector _), some (.matrix _ _) => lhs
    | some .scalar, some .scalar =>
        match lhs.kind?, rhs.kind? with
        | some l, some r => if l.rank < r.rank then rhs else lhs
        | _, _ => lhs
    | some .scalar, _ => rhs
    | _, _ => lhs

def text (t : ValueType) : String := if t.array then t.name ++ "[]" else t.name

end ValueType

def ScalarKind.hint? : ScalarKind → Option ScalarKind
  | .float => some .float
  | .double => some .double
  | .uint => some .uint
  | .bool | .int => none

/-- The kind that a bare integer takes where a value of this type stands. -/
def literalHint (t : Option ValueType) : Option ScalarKind :=
  (t.bind ValueType.elementKind?).bind ScalarKind.hint?

end ShaderCompiler
