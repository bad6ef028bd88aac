import ShaderCompiler.Normal.Locals
import ShaderCompiler.Normal.Operators

namespace ShaderCompiler

def MethodBody.normalize (m : MethodBody) : MethodBody := m.withOperators.withLocals

end ShaderCompiler
