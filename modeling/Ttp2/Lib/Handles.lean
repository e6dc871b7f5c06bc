import Ttp2.Lib.Lts
import Mathlib.Logic.Function.Basic

/-! # Handles that are given out again

The parts of a system hold handles of one table: descriptor numbers, slots,
leases. A part uses its handle and closes it; a closed handle may be given to
another part, and a part that uses it still then reaches what is not its own.
Where a part is disciplined about its last use being the close, its uses reach
its own resource exactly while it has not closed its handle (`isolated_iff`). -/
namespace Ttp2.Lib.Handles
open Lts

variable {ι σ ℓ κ : Type}

/-- What a handle stands for. -/
inductive Owner (ι : Type) where
  | part (k : ι)
  /-- something no part holds -/
  | other
  deriving DecidableEq

structure Use (ι κ : Type) where
  part : ι
  use : κ
  reached : Option (Owner ι)

/-- The table, the parts with their handles, and what each use reached. -/
structure Shared (ι σ κ : Type) where
  owner : Nat → Option (Owner ι) := fun _ => none
  parts : ι → Option (Nat × σ) := fun _ => none
  uses : List (Use ι κ) := []

inductive Label (ι ℓ : Type) where
  /-- a new part on a free handle -/
  | start (k : ι) (n : Nat)
  /-- a free handle goes to something else -/
  | reserve (n : Nat)
  | part (k : ι) (l : ℓ)

/-- A kind of part: its steps, its uses of the handle in a step, in order, and
which of them close it. -/
structure Kind (σ ℓ κ : Type) where
  init : σ
  step : Nat → σ → ℓ → Option σ
  uses : σ → ℓ → List κ
  closes : κ → Bool

variable [DecidableEq ι]

/-- One use of handle `n`; a close frees it, whoever holds it. -/
def Kind.use (kind : Kind σ ℓ κ) (k : ι) (n : Nat)
    (table : (Nat → Option (Owner ι)) × List (Use ι κ)) (use : κ) :
    (Nat → Option (Owner ι)) × List (Use ι κ) :=
  (if kind.closes use then Function.update table.1 n none else table.1,
    table.2 ++ [⟨k, use, table.1 n⟩])

def Kind.useAll (kind : Kind σ ℓ κ) (k : ι) (n : Nat) (s : Shared ι σ κ) (uses : List κ) :
    (Nat → Option (Owner ι)) × List (Use ι κ) :=
  uses.foldl (kind.use k n) (s.owner, s.uses)

def Kind.sharedStep (kind : Kind σ ℓ κ) (s : Shared ι σ κ) : Label ι ℓ → Option (Shared ι σ κ)
  | .start k n =>
    if s.owner n = none ∧ (s.parts k).isNone then
      some { s with owner := Function.update s.owner n (some (.part k)),
                    parts := Function.update s.parts k (some (n, kind.init)) }
    else none
  | .reserve n =>
    if s.owner n = none then some { s with owner := Function.update s.owner n (some .other) }
    else none
  | .part k l =>
    match s.parts k with
    | none => none
    | some (n, p) =>
      (kind.step n p l).map fun q =>
        let (owner, uses) := kind.useAll k n s (kind.uses p l)
        { owner, uses, parts := Function.update s.parts k (some (n, q)) }

/-- A part's last use is the close: until then it is open, and it stays closed. -/
structure Kind.Disciplined (kind : Kind σ ℓ κ) (isOpen : σ → Prop) : Prop where
  init : isOpen kind.init
  quiet {n : Nat} {p q : σ} {l : ℓ} : kind.step n p l = some q → kind.uses p l = [] →
    (isOpen q ↔ isOpen p)
  last {n : Nat} {p q : σ} {l : ℓ} {first : List κ} {use : κ} : kind.step n p l = some q →
    kind.uses p l = first ++ [use] → isOpen p →
      (∀ u ∈ first, kind.closes u = false) ∧ (kind.closes use = true ↔ ¬ isOpen q)
  closed {n : Nat} {p q : σ} {l : ℓ} : kind.step n p l = some q → ¬ isOpen p → ¬ isOpen q

/-- **Every use reached the part's own resource.** -/
def Isolated (s : Shared ι σ κ) : Prop := ∀ u ∈ s.uses, u.reached = some (.part u.part)

/-- A step that uses the handle finds it open. -/
def Kind.UsesOpen (kind : Kind σ ℓ κ) (isOpen : σ → Prop) (s : Shared ι σ κ) : Label ι ℓ → Prop
  | .part k l => ∀ r ∈ s.parts k, kind.uses r.2 l ≠ [] → isOpen r.2
  | _ => True

/-- The table says of a part's handle that it is the part's exactly while it is open. -/
structure Owned (isOpen : σ → Prop) (s : Shared ι σ κ) : Prop where
  part {k : ι} {n : Nat} {p : σ} : s.parts k = some (n, p) →
    (s.owner n = some (.part k) ↔ isOpen p)
  started {k : ι} {n : Nat} : s.owner n = some (.part k) → ∃ p, s.parts k = some (n, p)
  isolated : Isolated s

variable {kind : Kind σ ℓ κ} {isOpen : σ → Prop} {s t : Shared ι σ κ} {l : Label ι ℓ}

/-! ## The uses of one step -/

omit [DecidableEq ι] in
/-- Uses that close nothing all reach what the handle stands for. -/
theorem Kind.useAll_of_open (k : ι) (n : Nat) (s : Shared ι σ κ) {uses : List κ}
    (h : ∀ u ∈ uses, kind.closes u = false) :
    kind.useAll k n s uses = (s.owner, s.uses ++ uses.map (⟨k, ·, s.owner n⟩)) := by
  have hfold : ∀ done, uses.foldl (kind.use k n) (s.owner, done) =
      (s.owner, done ++ uses.map (⟨k, ·, s.owner n⟩)) := by
    intro done
    induction uses generalizing done with
    | nil => rw [List.foldl_nil, List.map_nil, List.append_nil]
    | cons u uses ih =>
      have hu : kind.use k n (s.owner, done) u = (s.owner, done ++ [⟨k, u, s.owner n⟩]) := by
        rw [Kind.use, h u List.mem_cons_self]
        rfl
      rw [List.foldl_cons, hu, ih (fun v hv => h v (List.mem_cons_of_mem _ hv)), List.map_cons,
        List.append_assoc, List.singleton_append]
  exact hfold s.uses

omit [DecidableEq ι] in
theorem Kind.useAll_concat (k : ι) (n : Nat) (s : Shared ι σ κ) {first : List κ} {use : κ}
    (h : ∀ u ∈ first, kind.closes u = false) :
    kind.useAll k n s (first ++ [use]) =
      (if kind.closes use then Function.update s.owner n none else s.owner,
        s.uses ++ (first ++ [use]).map (⟨k, ·, s.owner n⟩)) := by
  have hfirst := kind.useAll_of_open k n s h
  unfold useAll at hfirst ⊢
  rw [List.foldl_append, hfirst]
  simp [Kind.use]

omit [DecidableEq ι] in
/-- The first use of a step reaches what the handle stands for before it. -/
theorem Kind.first_mem_useAll (k : ι) (n : Nat) (s : Shared ι σ κ) (use : κ) (rest : List κ) :
    ⟨k, use, s.owner n⟩ ∈ (kind.useAll k n s (use :: rest)).2 := by
  have hkeep : ∀ (uses : List κ) (table : (Nat → Option (Owner ι)) × List (Use ι κ)),
      ∀ u ∈ table.2, u ∈ (uses.foldl (kind.use k n) table).2 := by
    intro uses
    induction uses with
    | nil => exact fun table u hu => hu
    | cons use uses ih => exact fun table u hu => ih _ u (List.mem_append_left _ hu)
  exact hkeep rest _ _ (List.mem_append_right _ (List.mem_singleton_self _))

theorem part_step {k : ι} {l : ℓ} (h : kind.sharedStep s (.part k l) = some t) :
    ∃ n p q, s.parts k = some (n, p) ∧ kind.step n p l = some q ∧
      t = { owner := (kind.useAll k n s (kind.uses p l)).1,
            uses := (kind.useAll k n s (kind.uses p l)).2,
            parts := Function.update s.parts k (some (n, q)) } := by
  simp only [Kind.sharedStep] at h
  split at h
  · cases h
  · rename_i n p hk
    obtain ⟨q, hq, rfl⟩ := Option.map_eq_some_iff.mp h
    exact ⟨n, p, q, hk, hq, rfl⟩

/-- A step leaves a part that is there as it is, or is that part's own. -/
theorem parts_of_step (h : kind.sharedStep s l = some t) (k : ι) :
    ((s.parts k).isSome → t.parts k = s.parts k) ∨ ∃ n p q l', l = .part k l' ∧
      s.parts k = some (n, p) ∧ kind.step n p l' = some q ∧ t.parts k = some (n, q) := by
  cases l with
  | start k' n =>
    simp only [Kind.sharedStep] at h
    split at h
    · rename_i hfree
      cases h
      refine .inl fun hsome => Function.update_of_ne ?_ ..
      rintro rfl
      rw [Option.isNone_iff_eq_none.mp hfree.2] at hsome
      cases hsome
    · cases h
  | reserve n =>
    simp only [Kind.sharedStep] at h
    split at h
    · cases h
      exact .inl fun _ => rfl
    · cases h
  | part k' l' =>
    obtain ⟨n, p, q, hk, hq, rfl⟩ := part_step h
    by_cases hkk : k = k'
    · subst hkk
      exact .inr ⟨n, p, q, l', rfl, hk, hq, Function.update_self ..⟩
    · exact .inl fun _ => Function.update_of_ne hkk ..

/-! ## The table and the parts agree -/

omit [DecidableEq ι] in
theorem Owned.init : Owned isOpen ({} : Shared ι σ κ) where
  part h := nomatch h
  started h := nomatch h
  isolated _ h := nomatch h

/-- A part moves; what its handle stands for changes only if it closes it. -/
theorem Owned.move (h : Owned isOpen s) {k : ι} {n : Nat} {p q : σ}
    {owner : Nat → Option (Owner ι)} {uses : List (Use ι κ)} (hk : s.parts k = some (n, p))
    (hother : ∀ m ≠ n, owner m = s.owner m)
    (hn : owner n = s.owner n ∨ owner n = none ∧ s.owner n = some (.part k))
    (hown : owner n = some (.part k) ↔ isOpen q)
    (hisolated : ∀ u ∈ uses, u.reached = some (.part u.part)) :
    Owned isOpen { owner, uses, parts := Function.update s.parts k (some (n, q)) } where
  part := by
    intro k' n' p' hpart
    change Function.update s.parts k (some (n, q)) k' = _ at hpart
    by_cases hkk : k' = k
    · subst hkk
      rw [Function.update_self] at hpart
      cases hpart
      exact hown
    · rw [Function.update_of_ne hkk] at hpart
      rw [← h.part hpart]
      show owner n' = _ ↔ _
      by_cases hnn : n' = n
      · subst hnn
        rcases hn with hn | ⟨hnone, hpart⟩
        · rw [hn]
        · rw [hnone, hpart]
          simpa using fun he => hkk he.symm
      · rw [hother n' hnn]
  started := by
    intro k' n' howner
    change owner n' = _ at howner
    show ∃ p, Function.update s.parts k (some (n, q)) k' = _
    have hbefore : s.owner n' = some (.part k') := by
      by_cases hnn : n' = n
      · subst hnn
        rcases hn with hn | ⟨hnone, -⟩
        · rw [← hn]
          exact howner
        · rw [hnone] at howner
          cases howner
      · rw [← hother n' hnn]
        exact howner
    obtain ⟨p', hp'⟩ := h.started hbefore
    by_cases hkk : k' = k
    · subst hkk
      rw [hk] at hp'
      cases hp'
      exact ⟨q, Function.update_self ..⟩
    · exact ⟨p', by rw [Function.update_of_ne hkk, hp']⟩
  isolated := hisolated

omit [DecidableEq ι] in
/-- The uses of a step that finds the handle open reach the part's own resource. -/
theorem Owned.useAll_uses (h : Owned isOpen s) (hkind : kind.Disciplined isOpen) {k : ι} {n : Nat}
    {p q : σ} {l : ℓ} (hk : s.parts k = some (n, p)) (hq : kind.step n p l = some q)
    (hopen : kind.uses p l ≠ [] → isOpen p) :
    (kind.useAll k n s (kind.uses p l)).2 =
      s.uses ++ (kind.uses p l).map (⟨k, ·, some (.part k)⟩) := by
  rcases List.eq_nil_or_concat (kind.uses p l) with hnil | ⟨first, use, huses⟩
  · rw [hnil, List.map_nil, List.append_nil]
    rfl
  · rw [List.concat_eq_append] at huses
    have hopen : isOpen p := hopen (by rw [huses]; simp)
    have hfirst := (hkind.last hq huses hopen).1
    rw [huses, kind.useAll_concat k n s hfirst, (h.part hk).mpr hopen]

theorem Owned.step (h : Owned isOpen s) (hkind : kind.Disciplined isOpen)
    (hok : kind.UsesOpen isOpen s l) (hs : kind.sharedStep s l = some t) : Owned isOpen t := by
  cases l with
  | start k n =>
    simp only [Kind.sharedStep] at hs
    split at hs
    · rename_i hfree
      obtain ⟨hfree, hnew⟩ := hfree
      have hnone : s.parts k = none := Option.isNone_iff_eq_none.mp hnew
      cases hs
      refine ⟨?_, ?_, h.isolated⟩
      · intro k' n' p' hpart
        change Function.update s.parts k (some (n, kind.init)) k' = _ at hpart
        show Function.update s.owner n (some (.part k)) n' = _ ↔ _
        by_cases hkk : k' = k
        · subst hkk
          rw [Function.update_self] at hpart
          cases hpart
          rw [Function.update_self]
          exact ⟨fun _ => hkind.init, fun _ => rfl⟩
        · rw [Function.update_of_ne hkk] at hpart
          rw [← h.part hpart]
          by_cases hnn : n' = n
          · subst hnn
            rw [Function.update_self, hfree]
            simpa using fun he => hkk he.symm
          · rw [Function.update_of_ne hnn]
      · intro k' n' howner
        change Function.update s.owner n (some (.part k)) n' = _ at howner
        show ∃ p, Function.update s.parts k (some (n, kind.init)) k' = _
        by_cases hnn : n' = n
        · subst hnn
          rw [Function.update_self] at howner
          cases howner
          exact ⟨_, Function.update_self ..⟩
        · rw [Function.update_of_ne hnn] at howner
          obtain ⟨p, hp⟩ := h.started howner
          have hkk : k' ≠ k := by
            rintro rfl
            rw [hnone] at hp
            cases hp
          exact ⟨p, by rw [Function.update_of_ne hkk, hp]⟩
    · cases hs
  | reserve n =>
    simp only [Kind.sharedStep] at hs
    split at hs
    · rename_i hfree
      cases hs
      have howner : ∀ k' n', Function.update s.owner n (some .other) n' = some (.part k') ↔
          s.owner n' = some (.part k') := by
        intro k' n'
        by_cases hnn : n' = n
        · subst hnn
          rw [Function.update_self, hfree]
          simp
        · rw [Function.update_of_ne hnn]
      exact ⟨fun hpart => (howner _ _).trans (h.part hpart),
        fun hn => h.started ((howner _ _).mp hn), h.isolated⟩
    · cases hs
  | part k l =>
    obtain ⟨n, p, q, hk, hq, rfl⟩ := part_step hs
    rcases List.eq_nil_or_concat (kind.uses p l) with hnil | ⟨first, use, huses⟩
    · rw [hnil]
      exact h.move hk (fun _ _ => rfl) (.inl rfl) ((h.part hk).trans (hkind.quiet hq hnil).symm)
        h.isolated
    · rw [List.concat_eq_append] at huses
      have hopen : isOpen p := hok _ hk (by rw [huses]; simp)
      have hown : s.owner n = some (.part k) := (h.part hk).mpr hopen
      obtain ⟨hfirst, hlast⟩ := hkind.last hq huses hopen
      rw [huses, kind.useAll_concat k n s hfirst]
      refine h.move hk ?_ ?_ ?_ ?_
      · intro m hm
        dsimp only
        split
        · exact Function.update_of_ne hm ..
        · rfl
      · dsimp only
        split
        · exact .inr ⟨Function.update_self .., hown⟩
        · exact .inl rfl
      · dsimp only
        split
        · rename_i hclose
          rw [Function.update_self]
          exact ⟨fun he => (by cases he), fun hq => absurd hq (hlast.mp hclose)⟩
        · rename_i hkeep
          exact ⟨fun _ => not_not.mp (mt hlast.mpr hkeep), fun _ => hown⟩
      · intro u hu
        rcases List.mem_append.mp hu with hu | hu
        · exact h.isolated u hu
        · obtain ⟨v, -, rfl⟩ := List.mem_map.mp hu
          exact hown

/-- A use of a handle that was closed reaches what is not the part's own. -/
theorem Owned.breaks (h : Owned isOpen s) (hbad : ¬ kind.UsesOpen isOpen s l)
    (hs : kind.sharedStep s l = some t) : ¬ Isolated t := by
  cases l with
  | part k l =>
    obtain ⟨n, p, q, hk, hq, rfl⟩ := part_step hs
    simp only [Kind.UsesOpen, hk, Option.mem_some_iff, forall_eq', Classical.not_imp] at hbad
    obtain ⟨huses, hclosed⟩ := hbad
    obtain ⟨use, rest, huses⟩ := List.exists_cons_of_ne_nil huses
    intro hisolated
    rw [huses] at hisolated
    have hreached := hisolated _ (kind.first_mem_useAll k n s use rest)
    exact hclosed ((h.part hk).mp hreached)
  | _ => exact absurd trivial hbad

/-- **Parts reach nothing but their own resource** exactly in the runs in
which every use of a handle finds it open. -/
theorem isolated_iff (hkind : kind.Disciplined isOpen) {ls : List (Label ι ℓ)} {t : Shared ι σ κ}
    (hrun : run kind.sharedStep {} ls = some t) :
    Throughout kind.sharedStep Isolated {} ls ↔ Along kind.sharedStep (kind.UsesOpen isOpen) {} ls :=
  throughout_iff_along (I := Owned isOpen) (fun h => h.isolated)
    (fun h (_ : True) hok hs => h.step hkind hok hs) (fun h _ hbad hs => h.breaks hbad hs) .init
    (.of_forall (fun _ _ => trivial) _ _) hrun

/-! ## What holds of every part -/

/-- Every part and its handle meet `I`. -/
def Each (I : Nat → σ → Prop) (s : Shared ι σ κ) : Prop :=
  ∀ k n p, s.parts k = some (n, p) → I n p

/-- What a part starts with and keeps in its own steps, every part does. -/
theorem Each.step {I : Nat → σ → Prop} (h : Each I s) (hinit : ∀ n, I n kind.init)
    (hpart : ∀ k n p q l', l = .part k l' → s.parts k = some (n, p) →
      kind.step n p l' = some q → I n p → I n q)
    (hs : kind.sharedStep s l = some t) : Each I t := by
  intro k' n' p' hk'
  cases l with
  | start k n =>
    simp only [Kind.sharedStep] at hs
    split at hs
    · cases hs
      change Function.update s.parts k (some (n, kind.init)) k' = _ at hk'
      by_cases hkk : k' = k
      · subst hkk
        rw [Function.update_self] at hk'
        cases hk'
        exact hinit _
      · rw [Function.update_of_ne hkk] at hk'
        exact h k' n' p' hk'
    · cases hs
  | reserve n =>
    simp only [Kind.sharedStep] at hs
    split at hs
    · cases hs
      exact h k' n' p' hk'
    · cases hs
  | part k l =>
    obtain ⟨n, p, q, hk, hq, rfl⟩ := part_step hs
    change Function.update s.parts k (some (n, q)) k' = _ at hk'
    by_cases hkk : k' = k
    · subst hkk
      rw [Function.update_self] at hk'
      cases hk'
      exact hpart k' _ _ _ _ rfl hk hq (h k' _ _ hk)
    · rw [Function.update_of_ne hkk] at hk'
      exact h k' n' p' hk'

/-! ## What reaches a part's resource -/

/-- What the uses that reached the resource of a part put there. -/
def received {β : Type} (sent : κ → List β) (k : ι) (uses : List (Use ι κ)) : List β :=
  uses.flatMap fun u => if u.reached = some (.part k) then sent u.use else []

/-- `total` is what a part has sent in all its uses. -/
structure Kind.Totals {β : Type} (kind : Kind σ ℓ κ) (sent : κ → List β) (total : σ → List β) :
    Prop where
  init : total kind.init = []
  step {n : Nat} {p q : σ} {l : ℓ} : kind.step n p l = some q →
    total q = total p ++ (kind.uses p l).flatMap sent

/-- What reached the resource of a part is what the part sent, and nothing
reached the one of a part that has not started. -/
structure Tallied {β : Type} (isOpen : σ → Prop) (sent : κ → List β) (total : σ → List β)
    (s : Shared ι σ κ) : Prop extends Owned isOpen s where
  total (k : ι) : received sent k s.uses = ((s.parts k).map fun r => total r.2).getD []

variable {β : Type} {sent : κ → List β} {total : σ → List β}

theorem Tallied.init : Tallied isOpen sent total ({} : Shared ι σ κ) where
  toOwned := .init
  total _ := rfl

theorem Tallied.received_eq (h : Tallied isOpen sent total s) {k : ι} {n : Nat} {p : σ}
    (hk : s.parts k = some (n, p)) : received sent k s.uses = total p := by
  rw [h.total k, hk]
  rfl

theorem received_append (k k' : ι) (uses : List (Use ι κ)) (new : List κ) :
    received sent k' (uses ++ new.map (⟨k, ·, some (.part k)⟩)) =
      received sent k' uses ++ if k = k' then new.flatMap sent else [] := by
  rw [received, received, List.flatMap_append, List.flatMap_map]
  congr 1
  split
  · rename_i hk
    subst hk
    simp
  · rename_i hk
    refine List.flatMap_eq_nil_iff.mpr fun u _ => if_neg ?_
    rintro ⟨⟩
    exact hk rfl

theorem Tallied.step (h : Tallied isOpen sent total s) (hkind : kind.Disciplined isOpen)
    (htotal : kind.Totals sent total) (hok : kind.UsesOpen isOpen s l)
    (hs : kind.sharedStep s l = some t) : Tallied isOpen sent total t := by
  refine ⟨h.toOwned.step hkind hok hs, fun k' => ?_⟩
  cases l with
  | start k n =>
    simp only [Kind.sharedStep] at hs
    split at hs
    · rename_i hfree
      cases hs
      show received sent k' s.uses =
        ((Function.update s.parts k (some (n, kind.init)) k').map fun r => total r.2).getD []
      rw [h.total k']
      by_cases hkk : k' = k
      · subst hkk
        rw [Function.update_self, Option.isNone_iff_eq_none.mp hfree.2]
        exact htotal.init.symm
      · rw [Function.update_of_ne hkk]
    · cases hs
  | reserve n =>
    simp only [Kind.sharedStep] at hs
    split at hs
    · cases hs
      exact h.total k'
    · cases hs
  | part k l =>
    obtain ⟨n, p, q, hk, hq, rfl⟩ := part_step hs
    show received sent k' (kind.useAll k n s (kind.uses p l)).2 =
      ((Function.update s.parts k (some (n, q)) k').map fun r => total r.2).getD []
    rw [h.useAll_uses hkind hk hq (hok _ hk), received_append, h.total k']
    by_cases hkk : k' = k
    · subst hkk
      rw [Function.update_self, if_pos rfl, hk]
      exact (htotal.step hq).symm
    · rw [Function.update_of_ne hkk, if_neg (Ne.symm hkk), List.append_nil]

end Ttp2.Lib.Handles
