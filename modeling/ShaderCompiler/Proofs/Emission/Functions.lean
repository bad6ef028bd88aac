import ShaderCompiler.Emission.Function
import ShaderCompiler.Proofs.Emission.Statements

namespace ShaderCompiler

inductive IsSize : Bool → String → Prop
  | plain : IsSize false ""
  | sized (size : String) : IsSize true ("[" ++ size ++ "]")

namespace IsSize

variable {array : Bool} {text : String} (P : String → Prop)

theorem of_plain (harray : array = false) (h : ∀ suffix, IsSize array suffix → P (text ++ suffix)) :
    P text := by
  subst harray
  simpa using h "" .plain

theorem of_sized (harray : array = true) (size : String)
    (h : ∀ suffix, IsSize array suffix → P (text ++ suffix)) :
    P (text ++ "[" ++ size ++ "]") := by
  subst harray
  have hsized := h _ (.sized size)
  rwa [← String.append_assoc, ← String.append_assoc] at hsized

end IsSize

def WritesResult (ctx : ClassContext) (text : String) : Option TypeRef → Prop
  | none => text = "void"
  | some type => ∃ target suffix, ctx.resolveType type.name = .ok target ∧
      IsSize type.array suffix ∧ text = target ++ suffix

def WritesParam (ctx : ClassContext) (p : Param) (text : String) : Prop :=
  ∃ target suffix, ctx.resolveType p.type.name = .ok target ∧ IsSize p.type.array suffix ∧
    text = p.passing.keyword ++ target ++ " " ++ p.name ++ suffix

theorem failsFor_arraySize {cs : List Construct} (fault : String → AttributeFault)
    (attributes : List Attribute) : FailsFor (arraySize fault attributes) cs := by
  unfold arraySize
  split
  · exact .other rfl
  · exact .ok rfl

theorem outcome_returnText (f : Frame) (m : MethodBody) :
    Outcome (fun text => m.returnType.toList.flatMap TypeRef.rejections = [] ∧
        WritesResult f.context text m.returnType)
      (m.returnType.toList.flatMap TypeRef.rejections) (returnText f m) := by
  rw [returnText]
  refine (failsFor_arraySize _ _).bind fun size _ => ?_
  cases m.returnType with
  | none => exact .ok ⟨rfl, rfl⟩
  | some type =>
      rw [Option.toList_some, List.flatMap_singleton, TypeRef.rejections]
      dsimp only
      cases hpointer : type.pointer with
      | true => exact .single rfl (List.mem_singleton_self _)
      | false =>
          refine (failsFor_resolveType _ _).bind fun target htarget => ?_
          have hwrites (suffix : String) (hsize : IsSize type.array suffix) :
              WritesResult f.context (target ++ suffix) (some type) :=
            ⟨target, suffix, htarget, hsize, rfl⟩
          cases harray : type.array with
          | false => exact .ok ⟨rfl, IsSize.of_plain (WritesResult f.context · _) harray hwrites⟩
          | true =>
              cases size with
              | none => exact .other rfl
              | some size =>
                  exact .ok ⟨rfl, IsSize.of_sized (WritesResult f.context · _) harray size hwrites⟩

theorem outcome_paramText (f : Frame) (p : Param) :
    Outcome (fun text => p.rejections = [] ∧ WritesParam f.context p text) p.rejections
      (paramText f p) := by
  rw [paramText, Param.rejections, TypeRef.rejections]
  cases hdefault : p.default.isSome with
  | true => exact .single rfl (by simp)
  | false =>
      cases hpointer : p.type.pointer with
      | true => exact .single rfl (by simp)
      | false =>
          refine (failsFor_arraySize _ _).bind fun size _ => ?_
          refine (failsFor_resolveType _ _).bind fun target htarget => ?_
          have hwrites (suffix : String) (hsize : IsSize p.type.array suffix) :
              WritesParam f.context p (p.passing.keyword ++ target ++ " " ++ p.name ++ suffix) :=
            ⟨target, suffix, htarget, hsize, rfl⟩
          cases harray : p.type.array with
          | false => exact .ok ⟨rfl, IsSize.of_plain (WritesParam f.context p) harray hwrites⟩
          | true =>
              cases size with
              | none => exact .other rfl
              | some size =>
                  exact .ok ⟨rfl, IsSize.of_sized (WritesParam f.context p) harray size hwrites⟩

theorem outcome_params (f : Frame) (params : List Param) (u : Uses) :
    Outcome (fun p => (params.flatMap Param.rejections = [] ∧
        List.Forall₂ (WritesParam f.context) params p.1) ∧ p.2 = u)
      (params.flatMap Param.rejections)
      ((params.mapM fun p => (liftM (paramText f p) : Emit String)) u) := by
  induction params with
  | nil => exact .ok ⟨⟨rfl, .nil⟩, rfl⟩
  | cons p params ih =>
      rw [List.mapM_cons, List.flatMap_cons]
      refine (outcome_paramText f p).left.lift ?_
      rintro text ⟨hplain, htext⟩
      refine ih.right.andThen ?_
      rintro texts v ⟨⟨hplains, htexts⟩, rfl⟩
      exact .ok ⟨⟨by rw [hplain, hplains]; rfl, .cons htext htexts⟩, rfl⟩

/-- The lines of a function. -/
inductive EmitsFunction (ctx : ClassContext) (m : MethodBody) (u : Uses) : List Line → Uses → Prop
  | intro {result params body v} (hplain : m.returnType.toList.flatMap TypeRef.rejections = [])
      (hresult : WritesResult ctx result m.returnType)
      (hplains : m.params.flatMap Param.rejections = [])
      (hparams : List.Forall₂ (WritesParam ctx) m.params params)
      (hbody : EmitsAll (bindParams (m.frame ctx) m.params) m.body u body v) :
      EmitsFunction ctx m u
        (Line.opened (result ++ " " ++ m.name ++ "(" ++ String.intercalate ", " params ++ ") \x7b")
          body ++ [.flat "\x7d"]) v

theorem outcome_functionLines (ctx : ClassContext) (m : MethodBody) (u : Uses) :
    Outcome (fun p => EmitsFunction ctx m u p.1 p.2) (m.rejections ctx)
      (functionLines ctx m u) := by
  rw [functionLines, MethodBody.rejections]
  refine (outcome_returnText (m.frame ctx) m).left.left.lift ?_
  rintro result ⟨hplain, hresult⟩
  refine (outcome_params (m.frame ctx) m.params u).right.left.andThen ?_
  rintro params u₁ ⟨⟨hplains, hparams⟩, rfl⟩
  have hbody := outcome_emitStmts (bindParams (m.frame ctx) m.params) m.body u₁
  rw [context_bindParams] at hbody
  refine hbody.right.andThen ?_
  rintro ⟨body, g⟩ v ⟨-, hbody⟩
  exact .ok (.intro hplain hresult hplains hparams hbody)

theorem emitsFunction_of_emitFunction {ctx : ClassContext} {indent : String} {m : MethodBody}
    {fn : ShaderFunction} (h : emitFunction ctx indent m = .ok fn) :
    ∃ lines, fn.text = renderLines indent lines ∧
      EmitsFunction ctx m {} lines ⟨fn.calls, fn.dependencies⟩ := by
  obtain ⟨⟨lines, uses⟩, hlines, h⟩ := exists_of_except_bind_ok h
  cases h
  exact ⟨lines, rfl, (outcome_functionLines ctx m {}).of_ok hlines⟩

/-- A method is refused for no construct that it does not hold. -/
theorem errsWithin_emitFunction (ctx : ClassContext) (indent : String) (m : MethodBody) :
    ErrsWithin (emitFunction ctx indent m) (m.rejections ctx) := by
  have hlines := (outcome_functionLines ctx m {}).failsFor
  exact (hlines.bind (Q := fun _ => True) fun p _ => .ok trivial).errsWithin

end ShaderCompiler
