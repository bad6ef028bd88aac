import ShaderCompiler.Construct
import ShaderCompiler.Dependency
import ShaderCompiler.Interface.Qualifier
import ShaderCompiler.Stage
import ShaderCompiler.Token.Fault

namespace ShaderCompiler

/-- The member of a class in whose body something was found. -/
structure Site where
  className : String
  member : String
  deriving DecidableEq, Repr

def Site.text (s : Site) : String := "in " ++ s.className ++ "." ++ s.member

inductive Place where
  | body (site : Site)
  | line (site : Site) (line : Nat)
  | field (owner : String) (line : Nat)
  | cycle (owner name : String)
  | libraryCycle (library name : String)
  deriving DecidableEq, Repr

def Place.text : Place → String
  | body site => site.text
  | line site n => site.text ++ " at line " ++ toString n
  | field owner n => "in field " ++ owner ++ " at line " ++ toString n
  | cycle owner name =>
      "'" ++ owner ++ "." ++ name ++ "' calls itself, directly or indirectly"
  | libraryCycle library name =>
      "library function '" ++ library ++ "." ++ name ++ "' calls itself, directly or indirectly"

inductive TypeFault where
  | unknown (name : String)
  | notInferable (site : Site)
  | notConstructible (name : String)
  deriving DecidableEq, Repr

def TypeFault.text : TypeFault → String
  | unknown name => name
  | notInferable site => "'var' with no inferable type " ++ site.text
  | notConstructible name => "'" ++ name ++ "' cannot be constructed"

inductive BlockFault where
  | conflictingStructs (name : String)
  | manyQualifiers (owner : String)
  | layoutWithoutQualifier (owner : String)
  | illegalInStage (stage : Stage) (qualifier : Qualifier) (owner : String)
  | memberDiffers (member : String) (qualifier block : Qualifier)
  | qualifiedMember (member : String) (qualifier : Qualifier)
  deriving DecidableEq, Repr

def BlockFault.text : BlockFault → String
  | conflictingStructs name =>
      "struct '" ++ name ++ "' is declared twice with different definitions"
  | manyQualifiers owner =>
      "struct '" ++ owner ++ "' carries more than one of Uniform, In, Out"
  | layoutWithoutQualifier owner =>
      "struct '" ++ owner ++
        "' has a layout or instance name but no Uniform, In or Out qualifier"
  | illegalInStage stage qualifier owner =>
      stage.label ++ " shaders cannot declare " ++ qualifier.label ++ " block '" ++ owner ++ "'"
  | memberDiffers member qualifier block =>
      "member '" ++ member ++ "' is " ++ qualifier.label ++ " but its block is " ++ block.label
  | qualifiedMember member qualifier =>
      "member '" ++ member ++ "' of plain struct cannot be " ++ qualifier.label

inductive RecoveryFault where
  | noBody (method : String) (line : Nat)
  | noEntryPoint (className : String)
  deriving DecidableEq, Repr

def RecoveryFault.text : RecoveryFault → String
  | noBody method line =>
      "method '" ++ method ++ "' (line " ++ toString line ++ ") has no body to recover"
  | noEntryPoint className => "shader class '" ++ className ++ "' has no main() entry point"

inductive MemberFault where
  | bareSelf
  | arrayMember (member array : String)
  | methodOnValue (method : String)
  | notIntrinsic (owner method : String)
  | methodOnType (owner method : String)
  deriving DecidableEq, Repr

def MemberFault.text (site : Site) : MemberFault → String
  | bareSelf => "'this' can only be used to access members " ++ site.text
  | arrayMember member array =>
      "'" ++ member ++ "' on array '" ++ array ++ "' " ++ site.text ++ "; only Length is supported"
  | methodOnValue method =>
      "method call '" ++ method ++ "' on a value has no GLSL equivalent " ++ site.text
  | notIntrinsic owner method =>
      "'" ++ owner ++ "." ++ method ++ "' is not a GLSL intrinsic " ++ site.text
  | methodOnType owner method =>
      "'" ++ owner ++ "." ++ method ++ "' has no GLSL equivalent " ++ site.text

inductive LayoutFault where
  | illegalKey (key owner : String) (stage : Stage) (legal : List String)
  | onlyOnFragCoord (key owner : String)
  | needsValue (key owner : String)
  | takesNoValue (key owner : String)
  deriving DecidableEq, Repr

def LayoutFault.text : LayoutFault → String
  | illegalKey key owner stage legal =>
      "'" ++ key ++ "' is not a legal layout parameter for " ++ owner ++ " (" ++ stage.label ++
        " stage); expected one of: " ++ String.intercalate ", " legal
  | onlyOnFragCoord key owner =>
      "'" ++ key ++ "' is only legal on a redeclared gl_FragCoord, not on " ++ owner
  | needsValue key owner =>
      "layout parameter '" ++ key ++ "' on " ++ owner ++ " requires a value"
  | takesNoValue key owner =>
      "layout parameter '" ++ key ++ "' on " ++ owner ++ " does not take a value"

inductive SizeFault where
  | returned (site : Site)
  | param (name : String) (site : Site)
  | localArray (name : String) (site : Site)
  | field (owner : String)
  deriving DecidableEq, Repr

def SizeFault.text : SizeFault → String
  | returned site => "array return value of " ++ site.text ++ " needs [return: ArraySize(n)]"
  | param name site => "array parameter '" ++ name ++ "' " ++ site.text ++ " needs [ArraySize(n)]"
  | localArray name site =>
      "local array '" ++ name ++ "' " ++ site.text ++ " has neither a size nor an initializer"
  | field owner =>
      "array field " ++ owner ++ " needs an ArraySize attribute or an initializer"

inductive AttributeFault where
  | onReturn (name : String) (site : Site)
  | onParam (name param : String) (site : Site)
  | onMethod (name method : String)
  | onDeclaration (name : String) (line : Nat) (target : String)
  | countOutOfRange (key : String) (value : Int64) (name : String)
  | countNotInteger (key name found : String)
  | noPrimitive (name : String)
  | badPrimitive (value name : String) (allowed : List String)
  | wrongStage (name : String) (expected actual : Stage) (className : String)
  | unnamedExtension
  | noVertices
  | verticesOutOfRange (value : Int64)
  | missing (stage : Stage) (className name : String)
  | notTessellation (value : String)
  | repeatedTessellation
  | noTessellationPrimitive (allowed : List String)
  | unsizedArraySize (target : String)
  | manyQualifiers (owner : String)
  | qualifiedConstant (owner : String)
  | layoutWithoutQualifier (owner : String)
  | sizeOnNonArray (owner : String)
  deriving DecidableEq, Repr

def AttributeFault.text : AttributeFault → String
  | onReturn name site =>
      "attribute '" ++ name ++ "' is not valid on the return value " ++ site.text
  | onParam name param site =>
      "attribute '" ++ name ++ "' is not valid on parameter '" ++ param ++ "' " ++ site.text
  | onMethod name method => "attribute '" ++ name ++ "' is not valid on method '" ++ method ++ "'"
  | onDeclaration name line target =>
      "attribute '" ++ name ++ "' (line " ++ toString line ++ ") is not valid on " ++ target
  | countOutOfRange key value name =>
      key ++ " = " ++ toString value.toInt ++ " is out of range on '" ++ name ++ "'"
  | countNotInteger key name found =>
      key ++ " on '" ++ name ++ "' must be an integer, found '" ++ found ++ "'"
  | noPrimitive name => "'" ++ name ++ "' requires a primitive type"
  | badPrimitive value name allowed =>
      "'" ++ value ++ "' is not a valid primitive for '" ++ name ++ "'; expected one of: " ++
        String.intercalate ", " allowed
  | wrongStage name expected actual className =>
      "'" ++ name ++ "' is only valid on " ++ expected.label ++ " shaders, not on " ++
        actual.label ++ " shader '" ++ className ++ "'"
  | unnamedExtension => "'Extension' requires a name"
  | noVertices => "'TessControl' requires Vertices = n"
  | verticesOutOfRange value => "vertex count " ++ toString value.toInt ++ " is out of range"
  | missing stage className name =>
      stage.label ++ " shader '" ++ className ++ "' requires a '" ++ name ++ "' attribute"
  | notTessellation value =>
      "'" ++ value ++ "' is not a tessellation primitive, spacing or winding"
  | repeatedTessellation => "'TessEvaluation' repeats a primitive, spacing or winding"
  | noTessellationPrimitive allowed =>
      "'TessEvaluation' requires a primitive: " ++ String.intercalate ", " allowed
  | unsizedArraySize target => "'ArraySize' on " ++ target ++ " requires a size"
  | manyQualifiers owner =>
      "field '" ++ owner ++ "' carries more than one of Uniform, In, Out, BuiltIn"
  | qualifiedConstant owner =>
      "constant '" ++ owner ++ "' cannot carry a qualifier or layout"
  | layoutWithoutQualifier owner =>
      "'Layout' on '" ++ owner ++ "' requires Uniform, In, Out or BuiltIn"
  | sizeOnNonArray owner => "'ArraySize' on " ++ owner ++ " which is not an array"

inductive ResolutionFault where
  | noMatch (dependency : Dependency)
  | ambiguous (dependency : Dependency)
  deriving DecidableEq, Repr

def ResolutionFault.text : ResolutionFault → String
  | noMatch dependency => "no library function matches " ++ dependency.text
  | ambiguous dependency =>
      dependency.text ++ " is ambiguous; qualify it with its library class"

inductive UsageFault where
  | libraryCompiled (className : String)
  | constructorParams (className : String)
  | manyEntryPoints (className : String)
  | initializerCalls (owner callee : String)
  | forInitializer (site : Site)
  | discardOutsideFragment (site : Site)
  | emptyArray (name : String) (site : Site)
  | bareArrayCreation (site : Site)
  | bareArrayInit (site : Site)
  | nonFinite (text : String) (site : Site)
  | emptyStruct (name : String) (site : Site)
  | constructedSampler (name : String) (site : Site)
  | verbatimArgument (site : Site)
  | entryPointCalled (owner caller : String)
  | initializedInterface (qualifier : Qualifier) (owner : String)
  | initializedMember (owner : String)
  | notLibrary (className : String)
  | mutableLibraryField (library field : String)
  | duplicateLibrary (library : String)
  | duplicateFunction (name : String) (arity : Nat) (first second : String)
  deriving DecidableEq, Repr

def UsageFault.text : UsageFault → String
  | libraryCompiled className =>
      "'" ++ className ++ "' is a library class; only shader classes can be compiled"
  | constructorParams className =>
      "constructor of '" ++ className ++
        "' takes parameters; shader constructors must be parameterless"
  | manyEntryPoints className =>
      "shader class '" ++ className ++ "' declares main() more than once"
  | initializerCalls owner callee =>
      "initializer of '" ++ owner ++ "' calls '" ++ callee ++
        "'; only intrinsics are allowed in field initializers"
  | forInitializer site => "unsupported for-loop initializer " ++ site.text
  | discardOutsideFragment site =>
      "discard is only valid in fragment shaders (" ++ site.text ++ ")"
  | emptyArray name site => "array '" ++ name ++ "' has an empty initializer " ++ site.text
  | bareArrayCreation site =>
      "array creation without an initializer is only valid in a declaration " ++ site.text
  | bareArrayInit site => "array initializer is only valid in a declaration " ++ site.text
  | nonFinite text site => "non-finite literal " ++ text ++ " " ++ site.text
  | emptyStruct name site =>
      "struct '" ++ name ++ "' must be constructed with a value for every member " ++ site.text
  | constructedSampler name site =>
      "sampler '" ++ name ++ "' cannot be constructed " ++ site.text
  | verbatimArgument site => "Glsl() takes a single string literal " ++ site.text
  | entryPointCalled owner caller =>
      "'" ++ owner ++ "." ++ caller ++ "' calls the entry point main"
  | initializedInterface qualifier owner =>
      qualifier.label ++ " '" ++ owner ++ "' cannot have an initializer"
  | initializedMember owner => "struct member '" ++ owner ++ "' cannot have an initializer"
  | notLibrary className => "'" ++ className ++ "' is a shader class, not a library"
  | mutableLibraryField library field =>
      "library field '" ++ library ++ "." ++ field ++ "' must be const"
  | duplicateLibrary library => "library '" ++ library ++ "' is already registered"
  | duplicateFunction name arity first second =>
      "function '" ++ name ++ "' with " ++ toString arity ++
        " parameter(s) is defined by both '" ++ first ++ "' and '" ++ second ++ "'"

inductive Diagnostic where
  | unreadable (file : String) (error : ReadError)
  | unknownType (fault : TypeFault)
  | interfaceBlock (fault : BlockFault)
  | recovery (fault : RecoveryFault)
  | unsupported (construct : Construct) (place : Place)
  | unsupportedMember (fault : MemberFault) (site : Site)
  | missingLocation (stage : Stage) (qualifier : Qualifier) (owner : String)
  | badLayout (fault : LayoutFault)
  | missingArraySize (fault : SizeFault)
  | badAttribute (fault : AttributeFault)
  | unresolved (fault : ResolutionFault)
  | invalidUse (fault : UsageFault)
  | settings
  deriving DecidableEq

namespace Diagnostic

def message : Diagnostic → String
  | unreadable file error =>
      "parse error: " ++ error.fault.text ++ " at " ++ file ++ ":" ++ toString error.line ++ ":" ++
        toString error.column
  | unknownType fault => "unknown type: '" ++ fault.text ++ "' has no GLSL equivalent"
  | interfaceBlock fault => "interface block error: " ++ fault.text
  | recovery fault => "recovery error: " ++ fault.text
  | unsupported construct place =>
      "unsupported construct: " ++ construct.description ++ " cannot be translated to GLSL (" ++
        place.text ++ ")"
  | unsupportedMember fault site => "unsupported member: " ++ fault.text site
  | missingLocation stage qualifier owner =>
      "missing attribute location: " ++ stage.label ++ " " ++ qualifier.label ++ " '" ++ owner ++
        "' needs Layout(location = n)"
  | badLayout fault => "layout error: " ++ fault.text
  | missingArraySize fault => "missing array size: " ++ fault.text
  | badAttribute fault => "attribute error: " ++ fault.text
  | unresolved fault => "unresolved dependency: " ++ fault.text
  | invalidUse fault => "invalid argument: " ++ fault.text
  | settings => "config error: the settings are not a valid table"

def construct? : Diagnostic → Option Construct
  | unsupported construct _ => some construct
  | _ => none

end Diagnostic

end ShaderCompiler
