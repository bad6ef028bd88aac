namespace ShaderCompiler

def terminated (text : String) : String :=
  if text.toList.getLast? = some '\n' then text else text ++ "\n"

def renderSections (sections : List String) : String :=
  String.intercalate "\n" ((sections.filter (· ≠ "")).map terminated)

end ShaderCompiler
