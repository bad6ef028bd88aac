import Mathlib.Data.List.Induction
import ShaderCompiler.Interface.Reflect
import ShaderCompiler.Proofs.Sequencing

namespace ShaderCompiler

def rolesOf (attributes : List Attribute) : List Qualifier :=
  attributes.filterMap (Qualifier.ofAttribute? ·.name)

def layoutOf (attributes : List Attribute) : Layout :=
  ⟨(attributes.filter (·.name == "Layout")).flatMap fun a => a.args.map LayoutParam.ofArg⟩

def instanceNameOf? (attributes : List Attribute) : Option String :=
  (attributes.filter (·.name == "InstanceName")).getLast?.bind (·.firstText?)

def arraySizeOf? (attributes : List Attribute) : Option String :=
  (attributes.filter (·.name == "ArraySize")).getLast?.bind (·.firstText?)

theorem Qualifier.attributeName_of_ofAttribute? {name : String} {q : Qualifier}
    (h : ofAttribute? name = some q) : q.attributeName = name := by
  simpa using List.find?_some h

namespace Annotations

/-- The notes hold what is written. -/
structure Reads (attributes : List Attribute) (n : Annotations) : Prop where
  qualifiers : n.qualifiers = rolesOf attributes
  layout : n.layout = layoutOf attributes
  instanceName : n.instanceName = instanceNameOf? attributes
  arraySize : n.arraySize = arraySizeOf? attributes

section

variable {allowed : List String} {target : String} {attributes : List Attribute} {a : Attribute}
  {n n' : Annotations}

theorem Reads.qualifier {q : Qualifier} (h : n.Reads attributes)
    (hq : Qualifier.ofAttribute? a.name = some q) :
    Reads (attributes ++ [a]) { n with qualifiers := n.qualifiers ++ [q] } := by
  have hname := Qualifier.attributeName_of_ofAttribute? hq
  have hne : a.name ≠ "Layout" ∧ a.name ≠ "InstanceName" ∧ a.name ≠ "ArraySize" := by
    rw [← hname]
    cases q <;> decide
  refine ⟨?_, ?_, ?_, ?_⟩
  · simp [rolesOf, hq, h.qualifiers]
  · simp [layoutOf, hne.1, h.layout]
  · simp [instanceNameOf?, hne.2.1, h.instanceName]
  · simp [arraySizeOf?, hne.2.2, h.arraySize]

theorem Reads.other (h : n.Reads attributes) (hq : Qualifier.ofAttribute? a.name = none)
    (hl : a.name ≠ "Layout") (hi : a.name ≠ "InstanceName") (hs : a.name ≠ "ArraySize") :
    n.Reads (attributes ++ [a]) where
  qualifiers := by simp [rolesOf, hq, h.qualifiers]
  layout := by simp [layoutOf, hl, h.layout]
  instanceName := by simp [instanceNameOf?, hi, h.instanceName]
  arraySize := by simp [arraySizeOf?, hs, h.arraySize]

theorem Reads.add (h : n.Reads attributes) (hadd : add allowed target n a = .ok n') :
    n'.Reads (attributes ++ [a]) ∧ a.name ∈ allowed := by
  unfold Annotations.add at hadd
  split at hadd
  · cases hadd
  · next hallowed =>
      refine ⟨?_, by simpa using hallowed⟩
      split at hadd
      · next q hq =>
          cases hadd
          exact h.qualifier hq
      · next hq =>
          have hroles : rolesOf (attributes ++ [a]) = rolesOf attributes := by
            simp [rolesOf, hq]
          split at hadd
          · next hname =>
              cases hadd
              refine ⟨?_, ?_, ?_, ?_⟩
              · rw [hroles, h.qualifiers]
              · simp [layoutOf, hname, h.layout]
              · simp [instanceNameOf?, hname, h.instanceName]
              · simp [arraySizeOf?, hname, h.arraySize]
          · next hname =>
              split at hadd
              · next size hsize =>
                  cases hadd
                  refine ⟨?_, ?_, ?_, ?_⟩
                  · rw [hroles, h.qualifiers]
                  · simp [layoutOf, hname, h.layout]
                  · simp [instanceNameOf?, hname, h.instanceName]
                  · simp [arraySizeOf?, hname, hsize]
              · cases hadd
          · next hname =>
              cases hadd
              have hother := h.other hq (by simp [hname]) (by simp [hname]) (by simp [hname])
              exact ⟨hother.qualifiers, hother.layout, hother.instanceName, hother.arraySize⟩
          · next hname =>
              cases hadd
              refine ⟨?_, ?_, ?_, ?_⟩
              · rw [hroles, h.qualifiers]
              · simp [layoutOf, hname, h.layout]
              · simp [instanceNameOf?, hname]
              · simp [arraySizeOf?, hname, h.arraySize]
          · cases hadd

/-- Collected notes hold what is written, and nothing is written that is not allowed. -/
theorem reads_of_collect (h : collect allowed target attributes = .ok n) :
    n.Reads attributes ∧ ∀ a ∈ attributes, a.name ∈ allowed := by
  unfold collect at h
  induction attributes using List.reverseRecOn generalizing n with
  | nil =>
      cases h
      exact ⟨⟨rfl, rfl, rfl, rfl⟩, nofun⟩
  | append_singleton attributes a ih =>
      rw [List.foldlM_append] at h
      obtain ⟨n₀, h₀, h⟩ := exists_of_except_bind_ok h
      have hadd : add allowed target n₀ a = .ok n := by
        simpa using h
      obtain ⟨hreads, hall⟩ := ih h₀
      obtain ⟨hreads', ha⟩ := hreads.add hadd
      exact ⟨hreads', List.forall_mem_append.mpr ⟨hall, List.forall_mem_singleton.mpr ha⟩⟩

end

end Annotations

namespace HeaderParts

/-- What one attribute of a class adds to its header. -/
inductive Adds (stage : Stage) (p : HeaderParts) (a : Attribute) : HeaderParts → Prop
  | version (hname : a.name = "Version") : Adds stage p a { p with version := a.firstText? }
  | extension {name : String} (hname : a.name = "Extension") (htext : a.firstText? = some name) :
      Adds stage p a { p with extensions := p.extensions ++ [name] }
  | debug (hname : a.name = "Debug") :
      Adds stage p a { p with debug := a.positionals.head? != some (.bool false) }
  | geometryInput {primitive : String} {invocations : Option Nat} (hname : a.name = "GeometryInput")
      (hstage : stage = .geometry) (hprimitive : a.primitive Primitive.geometryInputs = .ok primitive)
      (hcount : a.count? "Invocations" = .ok invocations) :
      Adds stage p a { p with geometryInput := some (primitive, invocations) }
  | geometryOutput {primitive : String} {maxVertices : Option Nat}
      (hname : a.name = "GeometryOutput") (hstage : stage = .geometry)
      (hprimitive : a.primitive Primitive.geometryOutputs = .ok primitive)
      (hcount : a.count? "MaxVertices" = .ok maxVertices) :
      Adds stage p a { p with geometryOutput := some (primitive, maxVertices) }
  | tessControl {vertices : Nat} (hname : a.name = "TessControl") (hstage : stage = .tessControl)
      (hcount : a.vertices = .ok vertices) : Adds stage p a { p with tessControl := some vertices }
  | tessEvaluation {layout : StageLayout} (hname : a.name = "TessEvaluation")
      (hstage : stage = .tessEvaluation) (hlayout : a.tessEvaluation = .ok layout) :
      Adds stage p a { p with tessEvaluation := some layout }

variable {c : ClassDecl} {stage : Stage} {p p' : HeaderParts} {a : Attribute}

theorem stage_of_stageOnly {expected : Stage} {u : Unit}
    (h : stageOnly c stage expected a = .ok u) : stage = expected := by
  unfold stageOnly at h
  split at h
  · next hstage => exact hstage
  · cases h

theorem adds_of_add (h : add c stage p a = .ok p') : Adds stage p a p' := by
  unfold add at h
  split at h
  · next hname =>
      cases h
      exact .version hname
  · next hname =>
      split at h
      · next name htext =>
          cases h
          exact .extension hname htext
      · cases h
  · next hname =>
      cases h
      exact .debug hname
  · next hname =>
      obtain ⟨⟨⟩, hstage, h⟩ := exists_of_except_bind_ok h
      obtain ⟨primitive, hprimitive, h⟩ := exists_of_except_bind_ok h
      obtain ⟨invocations, hcount, h⟩ := exists_of_except_bind_ok h
      cases h
      exact .geometryInput hname (stage_of_stageOnly hstage) hprimitive hcount
  · next hname =>
      obtain ⟨⟨⟩, hstage, h⟩ := exists_of_except_bind_ok h
      obtain ⟨primitive, hprimitive, h⟩ := exists_of_except_bind_ok h
      obtain ⟨maxVertices, hcount, h⟩ := exists_of_except_bind_ok h
      cases h
      exact .geometryOutput hname (stage_of_stageOnly hstage) hprimitive hcount
  · next hname =>
      obtain ⟨⟨⟩, hstage, h⟩ := exists_of_except_bind_ok h
      obtain ⟨vertices, hcount, h⟩ := exists_of_except_bind_ok h
      cases h
      exact .tessControl hname (stage_of_stageOnly hstage) hcount
  · next hname =>
      obtain ⟨⟨⟩, hstage, h⟩ := exists_of_except_bind_ok h
      obtain ⟨layout, hlayout, h⟩ := exists_of_except_bind_ok h
      cases h
      exact .tessEvaluation hname (stage_of_stageOnly hstage) hlayout
  · cases h

end HeaderParts

/-- The key is in the table of the stage and the role, and there is a value if and only if the key
takes one. -/
structure LayoutParam.IsLegal (stage : Stage) (role : LayoutRole) (p : LayoutParam) : Prop where
  key : p.key ∈ role.legalKeys stage
  value_iff : p.value.isSome = true ↔ p.key ∈ LayoutParam.valuedKeys

def Layout.IsLegal (stage : Stage) (role : LayoutRole) (l : Layout) : Prop :=
  ∀ p ∈ l.params, p.IsLegal stage role

section

variable {stage : Stage} {role : LayoutRole} {owner : String} {fragCoord : Bool}

theorem LayoutParam.check_eq_ok_iff (p : LayoutParam) :
    p.check stage role owner fragCoord = .ok () ↔
      p.IsLegal stage role ∧ (p.key ∈ fragCoordKeys → fragCoord = true) := by
  have hlegal : p.IsLegal stage role ↔
      p.key ∈ role.legalKeys stage ∧ (p.value.isSome = true ↔ p.key ∈ valuedKeys) :=
    ⟨fun h => ⟨h.1, h.2⟩, fun h => ⟨h.1, h.2⟩⟩
  rw [hlegal]
  unfold check
  by_cases hkey : p.key ∈ role.legalKeys stage
  · rw [if_neg (not_not.mpr hkey)]
    by_cases hcoord : p.key ∈ fragCoordKeys ∧ (!fragCoord) = true
    · rw [if_pos hcoord]
      simp only [Bool.not_eq_true'] at hcoord
      simp [hcoord]
    · rw [if_neg hcoord]
      by_cases hvalued : p.key ∈ valuedKeys <;> cases hv : p.value <;> simp_all
  · rw [if_pos hkey]
    simp [hkey]

theorem Layout.of_check {l : Layout} (h : l.check stage role owner fragCoord = .ok ()) :
    l.IsLegal stage role ∧ ∀ p ∈ l.params, p.key ∈ LayoutParam.fragCoordKeys → fragCoord = true := by
  have hall := forM_eq_ok (mapError_eq_ok h)
  exact ⟨fun p hp => ((p.check_eq_ok_iff).mp (hall p hp)).1,
    fun p hp => ((p.check_eq_ok_iff).mp (hall p hp)).2⟩

theorem fragment_of_fragCoordKeys {key : String} (hl : key ∈ role.legalKeys stage)
    (hc : key ∈ LayoutParam.fragCoordKeys) : stage = .fragment ∧ role = .input := by
  have hkey : key = "origin_upper_left" ∨ key = "pixel_center_integer" := by
    simpa [LayoutParam.fragCoordKeys] using hc
  cases role <;> cases stage <;> rcases hkey with rfl | rfl <;> revert hl <;> decide

end

end ShaderCompiler
