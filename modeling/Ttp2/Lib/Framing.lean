import Ttp2.Lib.Octets

/-! # Length-prefixed frames on a byte stream

A frame is the length of its body in four octets, most significant first,
and then the body. A byte stream that starts at a frame boundary has one
reading only: whatever split of it into frames is found from the front is
the beginning of every other (`frames_split`). -/
namespace Ttp2.Lib.Framing
open Octets

/-- A body behind its four length octets. -/
def frame (body : Bytes) : Bytes := toBe 4 body.length ++ body

/-- A sequence of frames, one after the other. -/
def frames (bodies : List Bytes) : Bytes := bodies.flatMap frame

/-- The first frame of a byte string and what follows it, if it is there in full. -/
def takeFrame (buffer : Bytes) : Option (Bytes × Bytes) :=
  if buffer.length < 4 then none
  else
    let n := ofBe (buffer.take 4)
    if buffer.length < 4 + n then none
    else some ((buffer.drop 4).take n, buffer.drop (4 + n))

/-- Bodies whose length the four octets can hold. -/
def Fits (bodies : List Bytes) : Prop := ∀ body ∈ bodies, body.length < 2 ^ 32

@[simp] theorem frames_nil : frames [] = [] := rfl

@[simp] theorem frames_cons (body : Bytes) (bodies : List Bytes) :
    frames (body :: bodies) = frame body ++ frames bodies := by
  simp [frames]

@[simp] theorem frames_append (as bs : List Bytes) : frames (as ++ bs) = frames as ++ frames bs := by
  simp [frames]

@[simp] theorem length_frame (body : Bytes) : (frame body).length = 4 + body.length := by
  simp [frame]

@[simp] theorem takeFrame_nil : takeFrame [] = none := rfl

@[simp] theorem fits_nil : Fits [] := by simp [Fits]

@[simp] theorem fits_cons {body : Bytes} {bodies : List Bytes} :
    Fits (body :: bodies) ↔ body.length < 2 ^ 32 ∧ Fits bodies := by
  simp [Fits]

theorem Fits.append {as bs : List Bytes} (ha : Fits as) (hb : Fits bs) : Fits (as ++ bs) := by
  intro body h
  rcases List.mem_append.mp h with h | h
  · exact ha body h
  · exact hb body h

theorem takeFrame_frame {body : Bytes} (h : body.length < 2 ^ 32) (rest : Bytes) :
    takeFrame (frame body ++ rest) = some (body, rest) := by
  have hlen : (frame body ++ rest).length = 4 + body.length + rest.length := by
    simp [Nat.add_assoc]
  have hhead : (frame body ++ rest).take 4 = toBe 4 body.length := by
    simp [frame]
  have hn : ofBe ((frame body ++ rest).take 4) = body.length := by
    rw [hhead, ofBe_toBe_of_lt (by omega)]
  have hdrop : (frame body ++ rest).drop 4 = body ++ rest := by
    simp [frame]
  unfold takeFrame
  simp only [hn]
  rw [if_neg (by omega), if_neg (by omega), ← List.drop_drop, hdrop]
  simp

theorem takeFrame_eq_some {buffer body rest : Bytes} (h : takeFrame buffer = some (body, rest)) :
    buffer = frame body ++ rest ∧ body.length < 2 ^ 32 := by
  unfold takeFrame at h
  dsimp only at h
  split at h
  · cases h
  · rename_i h4
    split at h
    · cases h
    · rename_i hn
      simp only [Option.some.injEq, Prod.mk.injEq] at h
      obtain ⟨rfl, rfl⟩ := h
      have hhead : (buffer.take 4).length = 4 := by rw [List.length_take]; omega
      have hlt : ofBe (buffer.take 4) < 2 ^ 32 := by
        have := ofBe_lt (buffer.take 4)
        rwa [hhead] at this
      have hbody : ((buffer.drop 4).take (ofBe (buffer.take 4))).length = ofBe (buffer.take 4) := by
        rw [List.length_take, List.length_drop]; omega
      have hpre : toBe 4 (ofBe (buffer.take 4)) = buffer.take 4 := by
        have := toBe_ofBe (buffer.take 4)
        rwa [hhead] at this
      refine ⟨?_, by omega⟩
      unfold frame
      rw [hbody, hpre, List.append_assoc, ← List.drop_drop, List.take_append_drop,
        List.take_append_drop]

/-- More bytes behind a complete frame stay behind it. -/
theorem takeFrame_append {buffer body rest : Bytes} (h : takeFrame buffer = some (body, rest))
    (more : Bytes) : takeFrame (buffer ++ more) = some (body, rest ++ more) := by
  obtain ⟨rfl, hlt⟩ := takeFrame_eq_some h
  rw [List.append_assoc]
  exact takeFrame_frame hlt _

/-- A stream without a complete frame has none in its beginning. -/
theorem takeFrame_eq_none_of_append {buffer more : Bytes} (h : takeFrame (buffer ++ more) = none) :
    takeFrame buffer = none := by
  cases hframe : takeFrame buffer with
  | none => rfl
  | some r =>
    rw [takeFrame_append hframe more] at h
    cases h

/-- At most one complete frame. -/
def OneFrame (buffer : Bytes) : Prop := ∀ r ∈ takeFrame buffer, takeFrame r.2 = none

instance (buffer : Bytes) : Decidable (OneFrame buffer) :=
  inferInstanceAs (Decidable (∀ r ∈ takeFrame buffer, takeFrame r.2 = none))

theorem OneFrame.of_none {buffer : Bytes} (h : takeFrame buffer = none) : OneFrame buffer := by
  intro r hr
  rw [h] at hr
  cases hr

/-- Once a frame is taken off the front, there is none. -/
theorem OneFrame.rest {buffer more body rest : Bytes} (h : OneFrame (buffer ++ more))
    (hcut : takeFrame buffer = some (body, rest)) : takeFrame (rest ++ more) = none :=
  h _ (takeFrame_append hcut more)

/-- One octet completes one frame at most. -/
theorem OneFrame.concat {buffer : Bytes} (h : takeFrame buffer = none) (octet : UInt8) :
    OneFrame (buffer ++ [octet]) := by
  rintro ⟨body, rest⟩ hr
  obtain ⟨hbytes, hlt⟩ := takeFrame_eq_some hr
  by_cases hrest : rest = []
  · rw [hrest]
    exact takeFrame_nil
  · -- the frame was complete before
    rw [← List.dropLast_concat_getLast hrest, ← List.append_assoc] at hbytes
    have hfront := (List.append_inj' hbytes rfl).1
    rw [hfront, takeFrame_frame hlt] at h
    cases h

/-- **One reading of a stream.** If a stream is the frames `as` and some rest,
and also the frames `bs` and a tail without a complete frame, then `as` are
the first of `bs`, and the rest is the remaining frames and that tail. -/
theorem frames_split {as bs : List Bytes} {rest tail : Bytes} (ha : Fits as) (hb : Fits bs)
    (ht : takeFrame tail = none) (h : frames as ++ rest = frames bs ++ tail) :
    as = bs.take as.length ∧ rest = frames (bs.drop as.length) ++ tail := by
  induction as generalizing bs with
  | nil => simpa using h
  | cons a as ih =>
    rw [fits_cons] at ha
    rw [frames_cons, List.append_assoc] at h
    have hfirst := takeFrame_frame ha.1 (frames as ++ rest)
    cases bs with
    | nil =>
      rw [frames_nil, List.nil_append] at h
      rw [h, ht] at hfirst
      cases hfirst
    | cons b bs =>
      rw [fits_cons] at hb
      rw [frames_cons, List.append_assoc] at h
      rw [h, takeFrame_frame hb.1] at hfirst
      simp only [Option.some.injEq, Prod.mk.injEq] at hfirst
      obtain ⟨hba, hrest⟩ := hfirst
      obtain ⟨htake, hdrop⟩ := ih ha.2 hb.2 hrest.symm
      refine ⟨?_, by simpa using hdrop⟩
      rw [List.length_cons, List.take_succ_cons, ← htake, hba]

/-- Frames with nothing complete behind them are determined by their bytes. -/
theorem frames_unique {as bs : List Bytes} {rest tail : Bytes} (ha : Fits as) (hb : Fits bs)
    (hr : takeFrame rest = none) (ht : takeFrame tail = none)
    (h : frames as ++ rest = frames bs ++ tail) : as = bs ∧ rest = tail := by
  obtain ⟨has, hrest⟩ := frames_split ha hb ht h
  obtain ⟨hbs, -⟩ := frames_split hb ha hr h.symm
  have hlen : as.length = bs.length := by
    have h1 := congrArg List.length has
    have h2 := congrArg List.length hbs
    rw [List.length_take] at h1 h2
    omega
  rw [hlen, List.take_length] at has
  refine ⟨has, ?_⟩
  rw [hrest, hlen, List.drop_length, frames_nil, List.nil_append]

/-- Frames found at the front of a sequence of frames are its first ones. -/
theorem isPrefix_of_frames {as bs : List Bytes} (ha : Fits as) (hb : Fits bs)
    (h : frames as <+: frames bs) : as <+: bs := by
  obtain ⟨rest, hr⟩ := h
  have hs := (frames_split ha hb takeFrame_nil (by rw [hr, List.append_nil])).1
  exact List.prefix_iff_eq_take.mpr hs

end Ttp2.Lib.Framing
