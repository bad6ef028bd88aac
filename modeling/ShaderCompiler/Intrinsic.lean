import ShaderCompiler.Vocabulary

namespace ShaderCompiler.Intrinsic

/-- The call that passes its text on unchanged. -/
def verbatim : String := "Glsl"

def sameAsFirst : List String :=
  ["radians", "degrees", "sin", "cos", "tan", "asin", "acos", "atan", "sinh", "cosh", "tanh",
   "asinh", "acosh", "atanh", "pow", "exp", "log", "exp2", "log2", "sqrt", "inversesqrt", "abs",
   "sign", "floor", "trunc", "round", "roundEven", "ceil", "fract", "mod", "modf", "min", "max",
   "clamp", "mix", "step", "smoothstep", "fma", "frexp", "ldexp", "normalize", "faceforward",
   "reflect", "refract", "cross", "matrixCompMult", "transpose", "inverse", "bitfieldExtract",
   "bitfieldInsert", "bitfieldReverse", "dFdx", "dFdy", "dFdxFine", "dFdyFine", "dFdxCoarse",
   "dFdyCoarse", "fwidth", "fwidthFine", "fwidthCoarse", "interpolateAtCentroid",
   "interpolateAtSample", "interpolateAtOffset"]

def scalarOfFirst : List String := ["length", "distance", "dot", "determinant"]

def others : List String :=
  ["isnan", "isinf", "floatBitsToInt", "floatBitsToUint", "intBitsToFloat", "uintBitsToFloat",
   "packUnorm2x16", "packSnorm2x16", "packUnorm4x8", "packSnorm4x8", "unpackUnorm2x16",
   "unpackSnorm2x16", "unpackUnorm4x8", "unpackSnorm4x8", "packHalf2x16", "unpackHalf2x16",
   "packDouble2x32", "unpackDouble2x32", "outerProduct", "lessThan", "lessThanEqual",
   "greaterThan", "greaterThanEqual", "equal", "notEqual", "any", "all", "not", "uaddCarry",
   "usubBorrow", "umulExtended", "imulExtended", "bitCount", "findLSB", "findMSB",
   "textureSize", "textureQueryLod", "textureQueryLevels", "textureSamples", "texture",
   "textureProj", "textureLod", "textureOffset", "texelFetch", "texelFetchOffset",
   "textureProjOffset", "textureLodOffset", "textureProjLod", "textureProjLodOffset",
   "textureGrad", "textureGradOffset", "textureProjGrad", "textureProjGradOffset",
   "textureGather", "textureGatherOffset", "textureGatherOffsets", "texture1D", "texture2D",
   "texture3D", "textureCube", "shadow2D", "EmitVertex", "EndPrimitive", "EmitStreamVertex",
   "EndStreamPrimitive", "barrier", "memoryBarrier", "memoryBarrierAtomicCounter",
   "memoryBarrierBuffer", "memoryBarrierShared", "memoryBarrierImage", "groupMemoryBarrier",
   "imageLoad", "imageStore", "imageSize", "imageAtomicAdd", "imageAtomicMin", "imageAtomicMax",
   "imageAtomicAnd", "imageAtomicOr", "imageAtomicXor", "imageAtomicExchange",
   "imageAtomicCompSwap", "atomicAdd", "atomicMin", "atomicMax", "atomicAnd", "atomicOr",
   "atomicXor", "atomicExchange", "atomicCompSwap", "atomicCounter", "atomicCounterIncrement",
   "atomicCounterDecrement", "noise1", "noise2", "noise3", "noise4"]

def isIntrinsic (name : String) : Bool :=
  sameAsFirst.contains name || scalarOfFirst.contains name || others.contains name

inductive ReturnRule where
  | firstArg
  | scalarOfFirst
  | fixed (type : String)
  | unknown
  deriving DecidableEq, Repr

def startsWith (lead name : String) : Bool := lead.toList.isPrefixOf name.toList

/-- The rule by name. It covers names that only look like texture look-ups, too. -/
def returnRule (name : String) : ReturnRule :=
  if sameAsFirst.contains name then .firstArg
  else if scalarOfFirst.contains name then .scalarOfFirst
  else if startsWith "texture" name && !startsWith "textureSize" name &&
      !startsWith "textureQuery" name then .fixed "vec4"
  else if ["any", "all", "isnan", "isinf"].contains name then .fixed "bool"
  else if ["bitCount", "findLSB", "findMSB", "textureQueryLevels",
      "textureSamples"].contains name then .fixed "int"
  else .unknown

def integerParams : String → List Nat
  | "ldexp" | "frexp" | "interpolateAtSample" | "textureSize" => [1]
  | "bitfieldExtract" => [1, 2]
  | "bitfieldInsert" => [2, 3]
  | "texelFetch" | "texelFetchOffset" | "textureGather" => [2]
  | "EmitStreamVertex" | "EndStreamPrimitive" => [0]
  | _ => []

end ShaderCompiler.Intrinsic
