import Ttp2.Lib.Lts
import Mathlib.Algebra.Ring.Int.Defs
import Mathlib.Algebra.Ring.Nat
import Mathlib.Data.List.Nodup
import Mathlib.Data.List.Range

/-! # Ids from a counter of 32 bits

Some steps of a system are given an id: the value of a counter that starts at
0 and is incremented each time. The ids given out so far are kept beside the
state. They are fresh as long as there are fewer than 2^31 of them, and no
longer. -/
namespace Ttp2.Lib.FreshIds
open Lts

universe u v
variable {σ : Type u} {ℓ : Type v}

/-- The system with the ids it has given out. -/
def recording (step : σ → ℓ → Option σ) (given : σ → ℓ → Option Int32) (s : σ × List Int32)
    (l : ℓ) : Option (σ × List Int32) :=
  (step s.1 l).map fun t => (t, s.2 ++ (given s.1 l).toList)

/-- No increment behind an id overflowed, none is the sentinel -1, and no two are equal. -/
structure Fresh (ids : List Int32) : Prop where
  increments : ∀ id ∈ ids, id.toInt + 1 < 2 ^ 31
  sentinel : -1 ∉ ids
  distinct : ids.Nodup

/-- A step that asks for an id is given the counter's value, which is then incremented. -/
structure Counts (step : σ → ℓ → Option σ) (given : σ → ℓ → Option Int32) (counter : σ → Int32)
    (asks : ℓ → Bool) : Prop where
  given : ∀ s l, given s l = if asks l then some (counter s) else none
  next : ∀ s l t, step s l = some t → counter t = if asks l then counter s + 1 else counter s

/-- The ids are the numbers from 0 on, as the counter runs through them. -/
structure Numbered (counter : Int32) (ids : List Int32) : Prop where
  numbers : ids = (List.range ids.length).map Int32.ofNat
  next : counter = Int32.ofNat ids.length

theorem Numbered.nil : Numbered 0 [] := ⟨rfl, rfl⟩

theorem Numbered.concat {counter : Int32} {ids : List Int32} (h : Numbered counter ids) :
    Numbered (counter + 1) (ids ++ [counter]) where
  numbers := by
    rw [List.length_append, List.length_singleton, List.range_succ, List.map_append, ← h.numbers,
      List.map_singleton, ← h.next]
  next := by
    rw [List.length_append, List.length_singleton, h.next, Int32.ofNat_add]
    rfl

theorem Numbered.fresh_iff {counter : Int32} {ids : List Int32} (h : Numbered counter ids) :
    Fresh ids ↔ ids.length < 2 ^ 31 := by
  constructor
  · intro hf
    by_contra hlong
    have hmem : Int32.ofNat (2 ^ 31 - 1) ∈ ids := by
      rw [h.numbers]
      exact List.mem_map.mpr ⟨2 ^ 31 - 1, List.mem_range.mpr (by omega), rfl⟩
    exact absurd (hf.increments _ hmem) (by decide)
  · intro hlt
    have hvalue : ∀ id ∈ ids, ∃ k < ids.length, id = Int32.ofNat k ∧ id.toInt = k := by
      intro id hid
      rw [h.numbers] at hid
      obtain ⟨k, hk, rfl⟩ := List.mem_map.mp hid
      have hk := List.mem_range.mp hk
      exact ⟨k, hk, rfl, Int32.toInt_ofNat_of_lt (by omega)⟩
    refine ⟨?_, ?_, ?_⟩
    · intro id hid
      obtain ⟨k, hk, -, hint⟩ := hvalue id hid
      omega
    · intro hmem
      obtain ⟨k, hk, -, hint⟩ := hvalue _ hmem
      have hneg : (-1 : Int32).toInt = -1 := rfl
      omega
    · rw [h.numbers]
      refine (List.nodup_map_iff_inj_on List.nodup_range).mpr fun i hi j hj he => ?_
      have hi := List.mem_range.mp hi
      have hj := List.mem_range.mp hj
      have hint := congrArg Int32.toInt he
      rw [Int32.toInt_ofNat_of_lt (by omega), Int32.toInt_ofNat_of_lt (by omega)] at hint
      omega

variable {step : σ → ℓ → Option σ} {given : σ → ℓ → Option Int32} {counter : σ → Int32}
  {asks : ℓ → Bool}

/-- One step: an id more if the label asks for one. -/
theorem numbered_step (hc : Counts step given counter asks) {s t : σ × List Int32} {l : ℓ}
    (h : Numbered (counter s.1) s.2) (hs : recording step given s l = some t) :
    Numbered (counter t.1) t.2 ∧ t.2.length = s.2.length + (if asks l then 1 else 0) := by
  obtain ⟨t, ht, rfl⟩ := Option.map_eq_some_iff.mp hs
  dsimp only
  rw [hc.next _ _ _ ht, hc.given]
  split
  · rw [Option.toList_some, List.length_append, List.length_singleton]
    exact ⟨h.concat, rfl⟩
  · rw [Option.toList_none, List.append_nil]
    exact ⟨h, rfl⟩

theorem numbered_run (hc : Counts step given counter asks) {s t : σ × List Int32} {ls : List ℓ}
    (h : Numbered (counter s.1) s.2) (hr : run (recording step given) s ls = some t) :
    Numbered (counter t.1) t.2 ∧ t.2.length = s.2.length + ls.countP asks := by
  induction ls generalizing s with
  | nil =>
    cases hr
    exact ⟨h, rfl⟩
  | cons l ls ih =>
    obtain ⟨m, hm, hr⟩ := run_cons.mp hr
    obtain ⟨hnumbered, hlen⟩ := numbered_step hc h hm
    obtain ⟨hlast, hcount⟩ := ih hnumbered hr
    refine ⟨hlast, ?_⟩
    rw [hcount, hlen, List.countP_cons]
    omega

/-- **How long ids stay fresh.** -/
theorem fresh_iff_of_run (hc : Counts step given counter asks) {s : σ} (h0 : counter s = 0)
    {t : σ × List Int32} {ls : List ℓ} (hr : run (recording step given) (s, []) ls = some t) :
    Fresh t.2 ↔ ls.countP asks < 2 ^ 31 := by
  have hstart : Numbered (counter s) [] := by
    rw [h0]
    exact .nil
  obtain ⟨hlast, hcount⟩ := numbered_run (s := (s, [])) hc hstart hr
  rw [hlast.fresh_iff, hcount, List.length_nil, Nat.zero_add]

end Ttp2.Lib.FreshIds
