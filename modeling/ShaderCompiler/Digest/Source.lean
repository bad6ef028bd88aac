import ShaderCompiler.Digest.Sha256

namespace ShaderCompiler

def littleEndian : (count : Nat) → Nat → List UInt8
  | 0, _ => []
  | count + 1, n => (n % 256).toUInt8 :: littleEndian count (n / 256)

def sourceDigest (text : String) : String :=
  let bytes := text.toUTF8.toList
  (Sha256.digest (littleEndian 8 bytes.length ++ bytes)).text

end ShaderCompiler
