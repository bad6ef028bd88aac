import ShaderCompiler.Linker.Link
import ShaderCompiler.Shader.Cache
import ShaderCompiler.Shader.Source

namespace ShaderCompiler

structure Session where
  settings : Settings := {}
  effort : Effort := {}
  cache : Cache CompiledShader := {}
  linker : Linker := {}

namespace Session

/-- New settings start a new count; what was cached or linked stays. -/
def reconfigure (s : Session) (settings : Settings) : Session := { s with settings, effort := {} }

def compile (s : Session) (c : ClassDecl) : Except Diagnostic CompiledShader × Session :=
  (ShaderCompiler.compile s.settings c,
    { s with effort := s.effort + compileEffort s.settings c })

def getOrCompile (s : Session) (c : ClassDecl) :
    Except Diagnostic (LookupSource × CompiledShader) × Session :=
  let (result, cache) := s.cache.getOrMake c.name fun _ => ShaderCompiler.compile s.settings c
  let effort :=
    if (s.cache.get? c.name).isSome then s.effort else s.effort + compileEffort s.settings c
  (result, { s with cache, effort })

def addLibrary (s : Session) (c : ClassDecl) : Except Diagnostic Unit × Session :=
  match s.linker.addLibrary c with
  | .ok linker => (.ok (), { s with linker })
  | .error e => (.error e, s)

def afterLink (s : Session) (shader : CompiledShader) : Session :=
  { s with
    linker := s.linker.afterLink s.settings shader
    effort := s.effort + s.linker.linkEffort s.settings shader }

def linkFunctions (s : Session) (shader : CompiledShader) :
    Except Diagnostic (List ShaderFunction) × Session :=
  (s.linker.linkFunctions s.settings shader, s.afterLink shader)

def link (s : Session) (shader : CompiledShader) : Except Diagnostic String × Session :=
  (s.linker.link s.settings shader, s.afterLink shader)

end Session

end ShaderCompiler
