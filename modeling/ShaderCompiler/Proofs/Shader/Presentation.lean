import ShaderCompiler.Proofs.Interface.DebugComments
import ShaderCompiler.Proofs.Linker.Arising
import ShaderCompiler.Proofs.Position.Compiling

namespace ShaderCompiler

end ShaderCompiler
