import ShaderCompiler.Assembly.Sections
import ShaderCompiler.Diagnostic
import ShaderCompiler.Interface.Basic

namespace ShaderCompiler

/-- `layout(…) uniform vec3 lights[4] = …; // Class.member` -/
def Variable.declaration (v : Variable) : String :=
  let words :=
    (if v.layout.isEmpty then [] else [v.layout.text]) ++
    (if v.isConst then ["const"] else []) ++
    (v.qualifier.map Qualifier.keyword).toList ++ [v.type, v.declarator]
  String.intercalate " " words ++ (v.initializer.map (" = " ++ ·)).getD "" ++ ";" ++
    (v.debugComment.map (" // " ++ ·)).getD ""

def commentLine (indent : String) : Option String → String
  | some comment => indent ++ "// " ++ comment ++ "\n"
  | none => ""

def variableLines (vs : List Variable) : String :=
  String.join (vs.map fun v => commentLine "" v.comment ++ v.declaration ++ "\n")

namespace InterfaceStruct

def memberLines (indent : String) (v : Variable) : String :=
  commentLine indent v.comment ++ indent ++ { v with qualifier := none }.declaration ++ "\n"

def opening (s : InterfaceStruct) : String :=
  match s.block with
  | some q =>
      (if s.layout.isEmpty then "" else s.layout.text ++ " ") ++ q.keyword ++ " " ++ s.name ++
        " \x7b\n"
  | none => "struct " ++ s.name ++ " \x7b\n"

def closing (s : InterfaceStruct) : String :=
  match s.block, s.instanceName with
  | some _, some name => "\x7d " ++ name ++ ";\n"
  | _, _ => "\x7d;\n"

def text (indent : String) (s : InterfaceStruct) : String :=
  commentLine "" s.comment ++ s.opening ++ String.join (s.members.map (memberLines indent)) ++
    s.closing

end InterfaceStruct

namespace StageLayout

def directive (params : List LayoutParam) (direction : String) : String :=
  (Layout.mk params).text ++ " " ++ direction ++ ";\n"

def counted (key : String) (n : Option Nat) : List LayoutParam :=
  (n.map fun n => ⟨key, some (toString n)⟩).toList

def flag (key : String) : LayoutParam := ⟨key, Option.none⟩

def text : StageLayout → String
  | none => ""
  | geometry input invocations output maxVertices =>
      directive (flag input :: counted "invocations" invocations) "in" ++
        directive (flag output :: counted "max_vertices" maxVertices) "out"
  | tessControl vertices => directive (counted "vertices" (some vertices)) "out"
  | tessEvaluation primitive spacing winding =>
      directive (flag primitive :: (spacing.map flag).toList ++ (winding.map flag).toList) "in"

end StageLayout

def extensionLine (extension : String) : String :=
  if extension.toList.contains ':' then "#extension " ++ extension ++ "\n"
  else "#extension " ++ extension ++ " : enable\n"

def keepStructs (kept : List InterfaceStruct) :
    List InterfaceStruct → Except Diagnostic (List InterfaceStruct)
  | [] => .ok kept
  | s :: rest =>
      match kept.find? (·.name == s.name) with
      | none => keepStructs (kept ++ [s]) rest
      | some k =>
          if k = s then keepStructs kept rest
          else .error (.interfaceBlock (.conflictingStructs s.name))

/-- Each struct once. Two of one name must be the same. -/
def distinctStructs (structs : List InterfaceStruct) : Except Diagnostic (List InterfaceStruct) :=
  keepStructs [] structs

def declarations (header : Header) (interface : Interface) (indent : String) :
    Except Diagnostic String := do
  let structs ← distinctStructs interface.structs
  return renderSections <|
    ["#version " ++ header.version ++ "\n", String.join (header.extensions.map extensionLine),
      header.stageLayout.text, variableLines interface.constants] ++
    structs.map (·.text indent) ++
    [variableLines interface.uniforms, variableLines interface.inputs,
      variableLines interface.outputs, variableLines interface.globals]

end ShaderCompiler
