namespace ShaderCompiler

inductive Construct where
  | exceptions
  | lambdas
  | queries
  | typeTests
  | typeOf
  | sizeOf
  | pointers
  | unmanaged
  | fixedBlocks
  | stackAlloc
  | goto
  | labels
  | iterators
  | null
  | anonymousTypes
  | namedArguments
  | defaultArguments
  | attributes
  | lockBlocks
  | usingBlocks
  | foreachLoops
  | baseAccess
  | strings
  | recursion
  deriving DecidableEq, Repr

def Construct.description : Construct → String
  | exceptions => "exceptions"
  | lambdas => "lambda expressions"
  | queries => "LINQ query expressions"
  | typeTests => "type tests (is/as)"
  | typeOf => "typeof"
  | sizeOf => "sizeof"
  | pointers => "pointers"
  | unmanaged => "unsafe code"
  | fixedBlocks => "fixed statements"
  | stackAlloc => "stackalloc"
  | goto => "goto"
  | labels => "labels"
  | iterators => "iterators (yield)"
  | null => "null references"
  | anonymousTypes => "anonymous types"
  | namedArguments => "named arguments"
  | defaultArguments => "default-value arguments"
  | attributes => "attributes in method bodies"
  | lockBlocks => "lock statements"
  | usingBlocks => "using statements"
  | foreachLoops => "foreach iteration"
  | baseAccess => "base access"
  | strings => "string literals"
  | recursion => "recursion"

end ShaderCompiler
