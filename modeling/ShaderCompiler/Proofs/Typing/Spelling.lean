import ShaderCompiler.Proofs.Typing.Discrete

namespace ShaderCompiler

namespace Vocabulary

/-- The name under which a type is kept. -/
def spelling (name : String) : String := (toTarget? name).getD name

/-- The vocabulary has another spelling for the name. -/
def isSecondSpelling (name : String) : Bool := spelling name != name

theorem spelling_of_target {name target : String} (h : toTarget? name = some target) :
    spelling name = target := by
  rw [spelling, h, Option.getD_some]

theorem spelling_of_unknown {name : String} (h : toTarget? name = none) :
    spelling name = name := by
  rw [spelling, h, Option.getD_none]

theorem toTarget?_spelling (name : String) : toTarget? (spelling name) = toTarget? name := by
  rw [toTarget?, spelling, lookup?_target]
  rfl

theorem spelling_spelling (name : String) : spelling (spelling name) = spelling name := by
  cases h : toTarget? name with
  | none => rw [spelling_of_unknown h, spelling_of_unknown h]
  | some target =>
      rw [spelling_of_target h]
      apply spelling_of_target
      rw [← spelling_of_target h, toTarget?_spelling, h, spelling_of_target h]

theorem isSecondSpelling_eq_false {name : String} :
    isSecondSpelling name = false ↔ spelling name = name := by
  rw [isSecondSpelling, bne_eq_false_iff_eq]

theorem isSecondSpelling_spelling (name : String) : isSecondSpelling (spelling name) = false :=
  isSecondSpelling_eq_false.mpr (spelling_spelling name)

end Vocabulary

end ShaderCompiler
