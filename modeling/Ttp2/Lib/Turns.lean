import Mathlib.Data.List.Perm.Basic

/-! # Writers that take turns

Several writers append to one stream, each a piece at a time, the text of one
item each. If nobody writes while the item of somebody else is partly
written, the stream is the texts of the items written so far, in some order,
and a part of at most one more. -/
namespace Ttp2.Lib.Turns

variable {α β : Type} {text : β → List α} {stream : List α} {begun : List β}

/-- An item somebody writes, and what is left to write. -/
structure Writing (α β : Type) where
  item : β
  rest : List α

/-- Nothing is written yet. -/
def Writing.Fresh (text : β → List α) (w : Writing α β) : Prop := w.rest = text w.item

variable {w : Writing α β} {active others : List (Writing α β)}

/-- **Whole texts and a part of one**: of the items begun, those nobody writes
any more are in the stream, in some order, and behind them what the one
writer that is not fresh has written. -/
def Orderly (text : β → List α) (stream : List α) (begun : List β) (active : List (Writing α β)) :
    Prop :=
  ∃ done part, stream = done.flatMap text ++ part ∧ begun.Perm (done ++ active.map Writing.item) ∧
    (part = [] ∧ (∀ w ∈ active, w.Fresh text) ∨
      ∃ w others, active.Perm (w :: others) ∧ part ++ w.rest = text w.item ∧
        ∀ v ∈ others, v.Fresh text)

theorem Orderly.nil : Orderly text [] [] [] :=
  ⟨[], [], rfl, .refl _, .inl ⟨rfl, nofun⟩⟩

theorem Orderly.perm (h : Orderly text stream begun active) {active' : List (Writing α β)}
    (hp : active.Perm active') : Orderly text stream begun active' := by
  obtain ⟨done, part, hstream, hbegun, hpart⟩ := h
  refine ⟨done, part, hstream, hbegun.trans ((hp.map _).append_left done), ?_⟩
  rcases hpart with ⟨hnil, hfresh⟩ | ⟨w, others, hactive, hpart, hfresh⟩
  · exact .inl ⟨hnil, fun v hv => hfresh v (hp.mem_iff.mpr hv)⟩
  · exact .inr ⟨w, others, hp.symm.trans hactive, hpart, hfresh⟩

/-- One more item is begun. -/
theorem Orderly.start (h : Orderly text stream begun active) (item : β) :
    Orderly text stream (begun ++ [item]) (⟨item, text item⟩ :: active) := by
  obtain ⟨done, part, hstream, hbegun, hpart⟩ := h
  refine ⟨done, part, hstream, ?_, ?_⟩
  · have hcons : (begun ++ [item]).Perm (item :: (done ++ active.map Writing.item)) :=
      (List.perm_append_singleton item begun).trans (hbegun.cons item)
    exact hcons.trans List.perm_middle.symm
  · rcases hpart with ⟨hnil, hfresh⟩ | ⟨w, others, hactive, hpart, hfresh⟩
    · exact .inl ⟨hnil, List.forall_mem_cons.mpr ⟨rfl, hfresh⟩⟩
    · refine .inr ⟨w, ⟨item, text item⟩ :: others, ?_, hpart,
        List.forall_mem_cons.mpr ⟨rfl, hfresh⟩⟩
      exact (hactive.cons _).trans (.swap ..)

/-- While the others are fresh, the part in the stream is this writer's. -/
theorem Orderly.turn (h : Orderly text stream begun (w :: others))
    (hothers : ∀ v ∈ others, v.Fresh text) :
    ∃ done part, stream = done.flatMap text ++ part ∧
      begun.Perm (done ++ w.item :: others.map Writing.item) ∧ part ++ w.rest = text w.item := by
  obtain ⟨done, part, hstream, hbegun, hpart⟩ := h
  refine ⟨done, part, hstream, hbegun, ?_⟩
  rcases hpart with ⟨rfl, hfresh⟩ | ⟨v, fresh, hactive, hpart, hfresh⟩
  · exact hfresh w List.mem_cons_self
  · rcases List.mem_cons.mp (hactive.mem_iff.mp List.mem_cons_self) with rfl | hw
    · exact hpart
    · -- this writer is fresh, and so is the other one: nothing is partly written
      rcases List.mem_cons.mp (hactive.mem_iff.mpr List.mem_cons_self) with rfl | hv
      · exact hpart
      · have hnil : part = [] := by
          rw [hothers v hv] at hpart
          exact List.append_left_eq_self.mp hpart
        rw [hnil]
        exact hfresh w hw

/-- A writer writes the next piece while the others are fresh. -/
theorem Orderly.write (h : Orderly text stream begun (w :: others))
    (hothers : ∀ v ∈ others, v.Fresh text) {piece rest : List α} (hpiece : piece ++ rest = w.rest) :
    Orderly text (stream ++ piece) begun (⟨w.item, rest⟩ :: others) := by
  obtain ⟨done, part, rfl, hbegun, hpart⟩ := h.turn hothers
  refine ⟨done, part ++ piece, List.append_assoc .., hbegun, .inr ⟨_, others, .refl _, ?_, hothers⟩⟩
  rw [List.append_assoc, hpiece, hpart]

/-- A writer writes the last piece while the others are fresh. -/
theorem Orderly.finish (h : Orderly text stream begun (w :: others))
    (hothers : ∀ v ∈ others, v.Fresh text) :
    Orderly text (stream ++ w.rest) begun others := by
  obtain ⟨done, part, rfl, hbegun, hpart⟩ := h.turn hothers
  refine ⟨done ++ [w.item], [], ?_, ?_, .inl ⟨rfl, hothers⟩⟩
  · rw [List.append_assoc, hpart, List.flatMap_append, List.flatMap_singleton, List.append_nil]
  · rw [List.append_assoc, List.singleton_append]
    exact hbegun

/-- Once nobody writes, the stream is the texts of the items begun, in some order. -/
theorem Orderly.order (h : Orderly text stream begun []) :
    ∃ order : List β, order.Perm begun ∧ stream = order.flatMap text := by
  obtain ⟨done, part, hstream, hbegun, hpart⟩ := h
  have hnil : part = [] := by
    rcases hpart with ⟨hnil, -⟩ | ⟨w, others, hactive, -, -⟩
    · exact hnil
    · exact absurd hactive.symm (List.not_perm_cons_nil)
  rw [List.map_nil, List.append_nil] at hbegun
  exact ⟨done, hbegun.symm, by rw [hstream, hnil, List.append_nil]⟩

end Ttp2.Lib.Turns
