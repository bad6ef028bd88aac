import ShaderCompiler.Shader.Compile

namespace ShaderCompiler

structure FunctionKey where
  library : Nat
  index : Nat
  deriving DecidableEq, Repr

/-- Libraries of distinct names in order of registration, and the functions of theirs that were
compiled so far. -/
@[ext]
structure Linker where
  libraries : List ClassDecl := []
  compiled : List (FunctionKey × ShaderFunction) := []
  names : (libraries.map (·.name)).Nodup := by decide

namespace Linker

def libraryNames (l : Linker) : List String := l.libraries.map (·.name)

theorem nodup_append_name {l : Linker} {c : ClassDecl} (h : c.name ∉ l.libraryNames) :
    ((l.libraries ++ [c]).map (·.name)).Nodup := by
  rw [List.map_append, List.nodup_append]
  refine ⟨l.names, by simp, ?_⟩
  rintro a ha b hb rfl
  rw [List.map_singleton, List.mem_singleton] at hb
  exact h (hb ▸ ha)

def register (l : Linker) (c : ClassDecl) (h : c.name ∉ l.libraryNames) : Linker :=
  { l with libraries := l.libraries ++ [c], names := nodup_append_name h }

/-- Only libraries without mutable fields can be registered, each name once. -/
def addLibrary (l : Linker) (c : ClassDecl) : Except Diagnostic Linker :=
  if !c.isLibrary then .error (.invalidUse (.notLibrary c.name))
  else
    match c.fields.find? (!·.isConst) with
    | some field => .error (.invalidUse (.mutableLibraryField c.name field.name))
    | none =>
        if h : c.name ∈ l.libraryNames then .error (.invalidUse (.duplicateLibrary c.name))
        else .ok (l.register c h)

def ofClasses (classes : List ClassDecl) : Except Diagnostic Linker :=
  (classes.filter (·.isLibrary)).foldlM addLibrary {}

def position? (l : Linker) (name : String) : Option Nat :=
  l.libraries.findIdx? (·.name == name)

def nameAt (l : Linker) (library : Nat) : String :=
  (l.libraries[library]?.map (·.name)).getD ""

def method? (l : Linker) (key : FunctionKey) : Option (ClassDecl × MethodDecl) := do
  let c ← l.libraries[key.library]?
  let m ← c.methods[key.index]?
  return (c, m)

end Linker

def ClassDecl.functionsNamed (c : ClassDecl) (name : String) : List Nat :=
  (List.range c.methods.length).filter fun i =>
    c.methods[i]?.any fun m => !m.isConstructor && m.name == name

namespace Linker

def functionsNamed (l : Linker) (library : Nat) (name : String) : List FunctionKey :=
  l.libraries[library]?.toList.flatMap fun c => (c.functionsNamed name).map (⟨library, ·⟩)

/-- Where a dependency is looked for: in the library that it names, or in all. -/
def searched (l : Linker) (d : Dependency) : List Nat :=
  match d.owner? with
  | some owner => (l.position? owner).toList
  | none => List.range l.libraries.length

def hasArity (l : Linker) (arity : Nat) (key : FunctionKey) : Bool :=
  (l.method? key).any (·.2.params.length == arity)

def resolve (l : Linker) (d : Dependency) : Except Diagnostic FunctionKey :=
  match ((l.searched d).flatMap (l.functionsNamed · d.name)).filter (l.hasArity d.arity) with
  | [key] => .ok key
  | [] => .error (.unresolved (.noMatch d))
  | _ => .error (.unresolved (.ambiguous d))

end Linker

end ShaderCompiler
