import Mathlib.Tactic.Common
import ShaderCompiler.Emission.Expr

namespace ShaderCompiler

variable {target : Expr}

theorem infer_member {env : TypeEnv} (h : target ≠ .self) (name : String) :
    infer env (.member target name) = (infer env target).bind (memberType? env.context · name) := by
  rw [infer]
  exact h

theorem infer_call_receiver {env : TypeEnv} (h : target ≠ .self) (name : String)
    (args : List (Arg Expr)) : infer env (.call (some target) name args) = none := by
  rw [infer] <;> simp [h]

theorem render_member {f : Frame} (h : target ≠ .self) (hint : Option ScalarKind)
    (name : String) :
    render f hint (.member target name) = do
      let t ← render f none target
      return .primary (← memberText f (infer f.env target) (t.fit Precedence.primary) name) := by
  rw [render]
  exact h

def Expr.isLeaf : Expr → Bool
  | .ident _ | .self | .literal _ => true
  | _ => false

/-- The map leaves a name, a literal and `this` as it is, and makes none of anything else. -/
def KeepsLeaves (g : Expr → Expr) : Prop :=
  ∀ {e leaf : Expr}, leaf.isLeaf = true → (g e = leaf ↔ e = leaf)

section KeepsLeaves

variable {g : Expr → Expr} (hg : KeepsLeaves g)

theorem KeepsLeaves.not_isLeaf (hg : KeepsLeaves g) {e : Expr} (h : ¬ e.isLeaf) :
    ¬ (g e).isLeaf := by
  intro hl
  rw [← (hg hl).mp rfl] at hl
  exact h hl

theorem KeepsLeaves.ne_self (hg : KeepsLeaves g) {e : Expr} (h : e ≠ .self) : g e ≠ .self :=
  fun he => h ((hg rfl).mp he)

abbrev mapValues (g : Expr → Expr) (args : List (Arg Expr)) : List (Arg Expr) :=
  args.map fun a => ⟨a.label, g a.value⟩

theorem hasLabel_mapValues (g : Expr → Expr) (args : List (Arg Expr)) :
    hasLabel (mapValues g args) = hasLabel args := by
  show (mapValues g args).any (·.label.isSome) = args.any (·.label.isSome)
  rw [List.any_map]
  rfl

theorem constructForm_mapValues (g : Expr → Expr) (f : Frame) (type : String)
    (args : List (Arg Expr)) :
    constructForm f type (mapValues g args) = constructForm f type args := by
  rw [constructForm, constructForm, List.isEmpty_map, List.length_map]

include hg

theorem mapValues_eq_text {args : List (Arg Expr)} {label : Option String} {text : String} :
    mapValues g args = [⟨label, .literal (.str text)⟩] ↔
      args = [⟨label, .literal (.str text)⟩] := by
  match args with
  | [] => rfl
  | a :: b :: rest => simp
  | [⟨l, e⟩] =>
      have h : g e = .literal (.str text) ↔ e = .literal (.str text) := hg rfl
      simp [h]

theorem verbatimForm_mapValues (f : Frame) (args : List (Arg Expr)) :
    verbatimForm f (mapValues g args) = verbatimForm f args := by
  by_cases h : ∃ text, args = [⟨none, .literal (.str text)⟩]
  · obtain ⟨text, rfl⟩ := h
    rw [(mapValues_eq_text hg).mpr rfl]
  · rw [verbatimForm, verbatimForm]
    · exact fun text he => h ⟨text, he⟩
    · exact fun text he => h ⟨text, (mapValues_eq_text hg).mp he⟩

variable (hi : ∀ env args, inferArgs env (mapValues g args) = inferArgs env args)

include hi

theorem bareForm_mapValues (f : Frame) (name : String) (args : List (Arg Expr)) :
    bareForm f name (mapValues g args) = bareForm f name args := by
  have hown : ownHints f name (mapValues g args) = ownHints f name args := by
    rw [ownHints, ownHints, hi]
  have hintrinsic : intrinsicHints f name (mapValues g args) = intrinsicHints f name args := by
    rw [intrinsicHints, intrinsicHints, hi, List.length_map]
  rw [bareForm, bareForm, verbatimForm_mapValues hg, constructForm_mapValues, hown, hintrinsic,
    List.length_map]

theorem qualifiedForm_mapValues (f : Frame) (owner name : String) (args : List (Arg Expr)) :
    qualifiedForm f owner name (mapValues g args) = qualifiedForm f owner name args := by
  rw [qualifiedForm, qualifiedForm, bareForm_mapValues hg hi, List.length_map]

/-- A call looks at the labels, the count and the types of its arguments, at a single text, and at
a receiver that is a name or `this`. -/
theorem callForm_mapValues (f : Frame) (receiver : Option Expr) (name : String)
    (args : List (Arg Expr)) :
    callForm f (receiver.map g) name (mapValues g args) = callForm f receiver name args := by
  cases receiver with
  | none => rw [Option.map_none, callForm, callForm, hasLabel_mapValues, bareForm_mapValues hg hi]
  | some r =>
      rw [Option.map_some]
      by_cases hr : r.isLeaf
      · rw [(hg hr).mpr rfl]
        cases r <;> simp only [callForm, hasLabel_mapValues, bareForm_mapValues hg hi,
          qualifiedForm_mapValues hg hi]
      · have refused {r : Expr} (hr : ¬ r.isLeaf) (args : List (Arg Expr)) :
            callForm f (some r) name args =
              if hasLabel args then .error (.unsupported .namedArguments (.body f.site))
              else .error (.unsupportedMember (.methodOnValue name) f.site) := by
          cases r with
          | ident | self | literal => exact absurd rfl hr
          | _ => rfl
        rw [refused hr, refused (hg.not_isLeaf hr), hasLabel_mapValues]

end KeepsLeaves

end ShaderCompiler
