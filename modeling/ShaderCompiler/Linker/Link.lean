import ShaderCompiler.Linker.Basic

namespace ShaderCompiler

namespace Linker

def function (l : Linker) (settings : Settings) (key : FunctionKey) :
    Except Diagnostic ShaderFunction :=
  match l.compiled.lookup key, l.method? key with
  | some f, _ => .ok f
  | none, some (c, m) => compileMethod settings (.ofClass c) m
  | none, none => .error (.unresolved (.noMatch ⟨l.nameAt key.library, "", key.index⟩))

/-- A function needs the methods of its library that it calls by name, then its dependencies. -/
def graph (l : Linker) (settings : Settings) : NeedGraph FunctionKey Diagnostic where
  needs key := do
    let f ← l.function settings key
    let own := f.calls.flatMap (l.functionsNamed key.library)
    return own.map .ok ++ f.dependencies.map l.resolve
  cycle key :=
    .unsupported .recursion
      (.libraryCycle (l.nameAt key.library) (((l.method? key).map (·.2.name)).getD ""))

def functionCount (l : Linker) : Nat := (l.libraries.flatMap (·.methods)).length

def walk (l : Linker) (settings : Settings) (s : CompiledShader) :
    Except Diagnostic Unit × Progress FunctionKey :=
  (l.graph settings).walk (l.functionCount + 1) (s.dependencies.map l.resolve)

end Linker

structure LinkedFunction where
  key : FunctionKey
  function : ShaderFunction
  deriving DecidableEq, Repr

/-- No two functions of a unit share name and arity. The owners of the signatures so far are
given. -/
def checkSignatures (nameAt : Nat → String) (owners : List ((String × Nat) × String)) :
    List LinkedFunction → Except Diagnostic Unit
  | [] => .ok ()
  | ⟨key, f⟩ :: rest =>
      match owners.lookup (f.name, f.arity) with
      | some first =>
          .error (.invalidUse (.duplicateFunction f.name f.arity first (nameAt key.library)))
      | none => checkSignatures nameAt (((f.name, f.arity), nameAt key.library) :: owners) rest

namespace Linker

def linked (l : Linker) (settings : Settings) (s : CompiledShader) :
    Except Diagnostic (List LinkedFunction) := do
  let (result, progress) := l.walk settings s
  result
  let linked ← progress.order.mapM fun key => return ⟨key, ← l.function settings key⟩
  checkSignatures l.nameAt (s.functions.map fun f => ((f.name, f.arity), s.name)) linked
  return linked

/-- The linker after linking: it keeps what was compiled, also when linking failed. -/
def afterLink (l : Linker) (settings : Settings) (s : CompiledShader) : Linker :=
  let entered := (l.walk settings s).2.entered.reverse
  let fresh := (entered.filter fun key => (l.compiled.lookup key).isNone).filterMap fun key =>
    (l.function settings key).toOption.map (key, ·)
  { l with compiled := l.compiled ++ fresh }

/-- The work of linking: each function that was not kept was compiled. -/
def linkEffort (l : Linker) (settings : Settings) (s : CompiledShader) : Effort :=
  let entered := (l.walk settings s).2.entered.filter fun key => (l.compiled.lookup key).isNone
  .sum (entered.map fun key => ((l.method? key).map (methodEffort ·.2)).getD {})

def linkFunctions (l : Linker) (settings : Settings) (s : CompiledShader) :
    Except Diagnostic (List ShaderFunction) :=
  (l.linked settings s).map fun fs => fs.map (·.function)

end Linker

def libraryConstant (c : ClassDecl) (field : FieldDecl) : Except Diagnostic Variable := do
  let ctx := ClassContext.ofClass c
  let type ← ctx.resolveType field.type.name
  let initializer ← initialValue ctx field (c.name ++ "." ++ field.name)
  return { type, name := field.name, isConst := true, initializer,
           arraySize :=
             if field.type.array then (field.init.bind initializerLength?).map toString else none }

def libraryConstants (c : ClassDecl) : Except Diagnostic (List Variable) :=
  c.fields.mapM (libraryConstant c)

namespace Linker

def constants (l : Linker) (linked : List LinkedFunction) : Except Diagnostic (List Variable) := do
  let used := distinct (linked.map (·.key.library))
  let lists ← (used.filterMap (l.libraries[·]?)).mapM libraryConstants
  return lists.flatten

def link (l : Linker) (settings : Settings) (s : CompiledShader) : Except Diagnostic String := do
  let linked ← l.linked settings s
  let constants ← l.constants linked
  return renderSections ([s.declarations, variableLines constants] ++
    linked.map (·.function.text) ++ s.functions.map (·.text))

end Linker

end ShaderCompiler
