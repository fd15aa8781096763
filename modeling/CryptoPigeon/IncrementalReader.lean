import Mathlib.Data.List.Basic
import Mathlib.Tactic.TypeStar

/-! # Readers that take a stream in pieces

A reader takes items off the front of a buffer for as long as a whole one is there, and keeps the
rest for the next chunk. All it needs is that an item found stays found when more is appended:
then what it has done after some chunks depends on their concatenation alone. A framing is a
reader whose items do not depend on its state. -/
namespace IncrementalReader

variable {σ α β : Type*}

/-- One item off the front of the buffer, if a whole one is there. -/
structure Reader (σ α : Type*) where
  step : σ → List α → Option (σ × List α)
  shorter : ∀ {s t x y}, step s x = some (t, y) → y.length < x.length
  extend : ∀ {s t x y} (z : List α), step s x = some (t, y) → step s (x ++ z) = some (t, y ++ z)

/-- Items are taken until the buffer holds no whole one. -/
def Reader.drain (R : Reader σ α) (s : σ) (buffer : List α) : σ × List α :=
  match _h : R.step s buffer with
  | none => (s, buffer)
  | some (t, rest) => R.drain t rest
termination_by buffer.length
decreasing_by exact R.shorter _h

/-- A chunk arrives. -/
def Reader.feed (R : Reader σ α) (c : σ × List α) (chunk : List α) : σ × List α :=
  R.drain c.1 (c.2 ++ chunk)

section Reader

variable {R : Reader σ α} {s t : σ} {x y z : List α}

theorem drain_none (h : R.step s x = none) : R.drain s x = (s, x) := by
  rw [Reader.drain]
  split
  · rfl
  · next he => rw [h] at he; cases he

theorem drain_some (h : R.step s x = some (t, y)) : R.drain s x = R.drain t y := by
  rw [Reader.drain]
  split
  · next he => rw [h] at he; cases he
  · next he =>
    rw [h, Option.some.injEq, Prod.mk.injEq] at he
    rw [he.1, he.2]

/-- Nothing more can be taken from what is left. -/
theorem drain_stuck (R : Reader σ α) (s : σ) (x : List α) :
    R.step (R.drain s x).1 (R.drain s x).2 = none := by
  induction s, x using Reader.drain.induct R with
  | case1 s x h => rw [drain_none h, h]
  | case2 s x t y h ih => rw [drain_some h]; exact ih

/-- What comes later may as well have been there from the start. -/
theorem drain_append (R : Reader σ α) (s : σ) (x z : List α) :
    R.drain s (x ++ z) = R.drain (R.drain s x).1 ((R.drain s x).2 ++ z) := by
  induction s, x using Reader.drain.induct R with
  | case1 s x h => rw [drain_none h]
  | case2 s x t y h ih => rw [drain_some (R.extend z h), drain_some h, ih]

/-- However the stream is cut, the reader gets as far as on the whole of it. -/
theorem feed_chunks (R : Reader σ α) (s : σ) (x : List α) (chunks : List (List α)) :
    chunks.foldl R.feed (R.drain s x) = R.drain s (x ++ chunks.flatten) := by
  induction chunks generalizing x with
  | nil => simp
  | cons chunk chunks ih =>
    have hchunk : R.feed (R.drain s x) chunk = R.drain s (x ++ chunk) :=
      (drain_append R s x chunk).symm
    rw [List.foldl_cons, hchunk, ih, List.flatten_cons, List.append_assoc]

end Reader

/-- Items that are found without regard to what was done with those before. -/
structure Framing (α β : Type*) where
  take : List α → Option (β × List α)
  shorter : ∀ {b x y}, take x = some (b, y) → y.length < x.length
  extend : ∀ {b x y} (z : List α), take x = some (b, y) → take (x ++ z) = some (b, y ++ z)

/-- The reader that hands each item to `handle`. -/
def Framing.reader (F : Framing α β) (handle : σ → β → σ) : Reader σ α where
  step s x := (F.take x).map fun r => (handle s r.1, r.2)
  shorter h := by
    obtain ⟨⟨b, y⟩, hb, he⟩ := Option.map_eq_some_iff.mp h
    cases he
    exact F.shorter hb
  extend z h := by
    obtain ⟨⟨b, y⟩, hb, he⟩ := Option.map_eq_some_iff.mp h
    cases he
    rw [F.extend z hb]
    rfl

/-- The whole items at the front of a stream. -/
def Framing.items (F : Framing α β) (x : List α) : List β :=
  ((F.reader fun items b => items ++ [b]).drain [] x).1

/-- What comes after them. -/
def Framing.rest (F : Framing α β) (x : List α) : List α :=
  ((F.reader fun items b => items ++ [b]).drain [] x).2

section Framing

variable {F : Framing α β} {handle : σ → β → σ} {s : σ} {b : β} {x y : List α}

theorem reader_none (h : F.take x = none) : (F.reader handle).step s x = none := by
  simp [Framing.reader, h]

theorem reader_some (h : F.take x = some (b, y)) :
    (F.reader handle).step s x = some (handle s b, y) := by
  simp [Framing.reader, h]

/-- The items, with those found before in front. -/
theorem drain_items (F : Framing α β) (items : List β) (x : List α) :
    (F.reader fun items b => items ++ [b]).drain items x = (items ++ F.items x, F.rest x) := by
  induction hn : x.length using Nat.strongRecOn generalizing items x with
  | ind n ih =>
    unfold Framing.items Framing.rest
    cases h : F.take x with
    | none =>
      rw [drain_none (reader_none h), drain_none (reader_none h), List.append_nil]
    | some r =>
      obtain ⟨b, y⟩ := r
      have hy : y.length < n := hn ▸ F.shorter h
      rw [drain_some (reader_some h), drain_some (reader_some h), ih _ hy (items ++ [b]) y rfl,
        ih _ hy ([] ++ [b]) y rfl]
      simp

theorem items_none (h : F.take x = none) : F.items x = [] := by
  rw [Framing.items, drain_none (reader_none h)]

theorem rest_none (h : F.take x = none) : F.rest x = x := by
  rw [Framing.rest, drain_none (reader_none h)]

theorem items_some (h : F.take x = some (b, y)) : F.items x = b :: F.items y := by
  rw [Framing.items, drain_some (reader_some h), drain_items]
  rfl

theorem rest_some (h : F.take x = some (b, y)) : F.rest x = F.rest y := by
  rw [Framing.rest, drain_some (reader_some h), drain_items]

/-- A reader over a framing handles the items of the stream, one after the other. -/
theorem drain_eq_foldl (F : Framing α β) (handle : σ → β → σ) (s : σ) (x : List α) :
    (F.reader handle).drain s x = ((F.items x).foldl handle s, F.rest x) := by
  induction hn : x.length using Nat.strongRecOn generalizing s x with
  | ind n ih =>
    cases h : F.take x with
    | none => rw [drain_none (reader_none h), items_none h, rest_none h, List.foldl_nil]
    | some r =>
      obtain ⟨b, y⟩ := r
      have hy : y.length < n := hn ▸ F.shorter h
      rw [drain_some (reader_some h), ih _ hy (handle s b) y rfl, items_some h, rest_some h,
        List.foldl_cons]

/-- The rest of a stream holds no whole item. -/
theorem rest_stuck (F : Framing α β) (x : List α) : F.take (F.rest x) = none := by
  have hstuck := drain_stuck (F.reader fun items b => items ++ [b]) [] x
  exact Option.map_eq_none_iff.mp hstuck

/-- More of the stream adds items behind those that are there. -/
theorem items_append (F : Framing α β) (x z : List α) :
    F.items (x ++ z) = F.items x ++ F.items (F.rest x ++ z) := by
  rw [Framing.items, drain_append, drain_items, drain_items]
  rfl

end Framing

end IncrementalReader
