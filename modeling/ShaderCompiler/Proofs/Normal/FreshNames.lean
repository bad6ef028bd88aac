import Mathlib.Data.List.Nodup
import Mathlib.Data.List.Perm.Subperm
import Mathlib.Order.Monotone.Basic
import ShaderCompiler.Normal.Locals

namespace ShaderCompiler

theorem localName_injective : Function.Injective localName := by
  intro a b h
  have hd : Nat.toDigits 10 a = Nat.toDigits 10 b := by
    simpa [localName] using congrArg String.toList h
  have hn : Nat.ofDigitChars 10 (Nat.toDigits 10 a) 0 = b := by
    rw [hd, Nat.ofDigitChars_ten_toDigits]
  rwa [Nat.ofDigitChars_ten_toDigits] at hn

section

variable (taken : List String)

/-- The number from which on a number is sought for the local after `k` others. -/
def nextIndex : (k : Nat) → Nat
  | 0 => 0
  | k + 1 => freeIndex taken taken.length (nextIndex k) + 1

def freshIndex (k : Nat) : Nat := freeIndex taken taken.length (nextIndex taken k)

theorem le_freeIndex (fuel n : Nat) : n ≤ freeIndex taken fuel n := by
  induction fuel generalizing n with
  | zero => exact le_refl n
  | succ fuel ih =>
      rw [freeIndex]
      split
      · exact (Nat.le_succ n).trans (ih (n + 1))
      · exact le_refl n

theorem mem_of_freeIndex {fuel n k : Nat} (hk : n ≤ k) (hf : k < freeIndex taken fuel n) :
    localName k ∈ taken := by
  induction fuel generalizing n with
  | zero =>
      rw [freeIndex] at hf
      omega
  | succ fuel ih =>
      rw [freeIndex] at hf
      split at hf
      · next hc =>
          rcases Nat.eq_or_lt_of_le hk with rfl | hlt
          · exact List.contains_iff_mem.mp hc
          · exact ih hlt hf
      · omega

theorem freeIndex_eq_or (fuel n : Nat) :
    localName (freeIndex taken fuel n) ∉ taken ∨ freeIndex taken fuel n = n + fuel := by
  induction fuel generalizing n with
  | zero => exact Or.inr rfl
  | succ fuel ih =>
      rw [freeIndex]
      split
      · rcases ih (n + 1) with hf | hf
        · exact Or.inl hf
        · exact Or.inr (by omega)
      · next hc => exact Or.inl fun hm => hc (List.contains_iff_mem.mpr hm)

/-- Too few names are taken for all the numbers that are tried. -/
theorem localName_freeIndex_notMem (n : Nat) :
    localName (freeIndex taken taken.length n) ∉ taken := by
  rcases freeIndex_eq_or taken taken.length n with hf | hf
  · exact hf
  · intro hm
    have hsub : (List.range' n (taken.length + 1)).map localName ⊆ taken := by
      intro name hname
      obtain ⟨k, hk, rfl⟩ := List.mem_map.mp hname
      obtain ⟨hnk, hkn⟩ := List.mem_range'_1.mp hk
      rcases Nat.lt_or_ge k (n + taken.length) with hlt | hge
      · exact mem_of_freeIndex taken hnk (hf ▸ hlt)
      · obtain rfl : k = n + taken.length := by omega
        rwa [hf] at hm
    have hnodup : ((List.range' n (taken.length + 1)).map localName).Nodup :=
      (List.nodup_range' (s := n) (n := taken.length + 1)).map localName_injective
    have hlen := (List.Nodup.subperm hnodup hsub).length_le
    rw [List.length_map, List.length_range'] at hlen
    omega

theorem freshIndex_strictMono : StrictMono (freshIndex taken) := by
  apply strictMono_nat_of_lt_succ
  intro k
  exact le_freeIndex taken taken.length (freshIndex taken k + 1)

end

end ShaderCompiler
