import ShaderCompiler.Grammar.Class
import ShaderCompiler.Shader.Compile

namespace ShaderCompiler

def readSource (text file : String) : Except Diagnostic (List ClassDecl) :=
  (Token.tokenize text >>= readClasses).mapError (.unreadable file)

def findClass? (classes : List ClassDecl) (name : String) : Option ClassDecl :=
  classes.find? (·.name == name)

def compileSource (settings : Settings) (text file : String) :
    Except Diagnostic (List CompiledShader) := do
  let classes ← readSource text file
  (classes.filter (·.isShader)).mapM (compile settings)

end ShaderCompiler
