import Mathlib.Algebra.GroupWithZero.Nat
import Mathlib.Data.List.Basic

/-!
# Tilings of an interval

A list of tiles laid end to end covers an interval `[a, b)`. An allocator that splits and merges
blocks in place never does anything else than replace some neighbouring tiles by others that
cover the same part, so the lemmas are about appending, splitting at a tile, and replacing.

* `Tiles.replace` — one tile replaced by tiles covering the same part
* `Tiles.pairwise`, `Tiles.disjoint` — two tiles do not overlap
* `Tiles.eq_of_start` — the start tells the tile, when no tile is empty
-/

namespace Infra

variable {κ : Type}

/-- A piece of an interval: where it starts, how long it is, what it is used for. -/
structure Tile (κ : Type) where
  start : Nat
  size : Nat
  kind : κ

/-- The first position after the tile. -/
def Tile.stop (t : Tile κ) : Nat := t.start + t.size

@[simp] theorem Tile.stop_mk (a n : Nat) (k : κ) : (Tile.mk a n k).stop = a + n := rfl

/-- The tiles cover `[a, b)` from left to right, each starting where the one before stops. -/
def Tiles : Nat → List (Tile κ) → Nat → Prop
  | a, [], b => a = b
  | a, t :: ts, b => t.start = a ∧ Tiles t.stop ts b

@[simp] theorem tiles_nil {a b : Nat} : Tiles a ([] : List (Tile κ)) b ↔ a = b := Iff.rfl

@[simp] theorem tiles_cons {a b : Nat} {t : Tile κ} {ts : List (Tile κ)} :
    Tiles a (t :: ts) b ↔ t.start = a ∧ Tiles t.stop ts b := Iff.rfl

theorem tiles_append {b : Nat} {ys : List (Tile κ)} : ∀ {xs : List (Tile κ)} {a : Nat},
    Tiles a (xs ++ ys) b ↔ ∃ m, Tiles a xs m ∧ Tiles m ys b
  | [], a => by simp
  | t :: xs, a => by
    have ih := @tiles_append b ys xs t.stop
    simp only [List.cons_append, tiles_cons, ih]
    constructor
    · rintro ⟨ha, m, hx, hy⟩
      exact ⟨m, ⟨ha, hx⟩, hy⟩
    · rintro ⟨m, ⟨ha, hx⟩, hy⟩
      exact ⟨ha, m, hx, hy⟩

/-- Splitting a tiling at one of its tiles. -/
theorem tiles_split {a b : Nat} {xs ys : List (Tile κ)} {t : Tile κ} :
    Tiles a (xs ++ t :: ys) b ↔ Tiles a xs t.start ∧ Tiles t.stop ys b := by
  rw [tiles_append]
  constructor
  · rintro ⟨m, hx, rfl, hy⟩
    exact ⟨hx, hy⟩
  · rintro ⟨hx, hy⟩
    exact ⟨t.start, hx, rfl, hy⟩

namespace Tiles

variable {a b : Nat} {ts xs ys us : List (Tile κ)} {t u : Tile κ}

theorem le : ∀ {ts : List (Tile κ)} {a : Nat}, Tiles a ts b → a ≤ b
  | [], _, h => Nat.le_of_eq h
  | t :: ts, a, ⟨h, hrest⟩ => by
    have := le hrest
    unfold Tile.stop at this
    omega

/-- The sizes of the tiles sum to the length of the interval. -/
theorem sum_size : ∀ {ts : List (Tile κ)} {a : Nat}, Tiles a ts b → a + (ts.map (·.size)).sum = b
  | [], _, h => h
  | t :: ts, a, ⟨h, hrest⟩ => by
    have := sum_size hrest
    unfold Tile.stop at this
    rw [List.map_cons, List.sum_cons]
    omega

theorem mem_bounds (h : Tiles a ts b) (ht : t ∈ ts) : a ≤ t.start ∧ t.stop ≤ b := by
  obtain ⟨xs, ys, rfl⟩ := List.append_of_mem ht
  obtain ⟨hx, hy⟩ := tiles_split.mp h
  exact ⟨hx.le, hy.le⟩

/-- A tile stops before every tile after it starts. -/
theorem pairwise : ∀ {ts : List (Tile κ)} {a : Nat}, Tiles a ts b →
    ts.Pairwise (fun t u => t.stop ≤ u.start)
  | [], _, _ => List.Pairwise.nil
  | _ :: _, _, ⟨_, hrest⟩ =>
    List.Pairwise.cons (fun _ hu => (hrest.mem_bounds hu).1) (pairwise hrest)

/-- A tile may be replaced by tiles covering the same part. -/
theorem replace (h : Tiles a (xs ++ t :: ys) b) (hu : Tiles t.start us t.stop) :
    Tiles a (xs ++ us ++ ys) b := by
  obtain ⟨hx, hy⟩ := tiles_split.mp h
  exact tiles_append.mpr ⟨t.stop, tiles_append.mpr ⟨t.start, hx, hu⟩, hy⟩

theorem disjoint (h : Tiles a ts b) (ht : t ∈ ts) (hu : u ∈ ts) :
    t = u ∨ t.stop ≤ u.start ∨ u.stop ≤ t.start := by
  obtain ⟨xs, ys, rfl⟩ := List.append_of_mem ht
  obtain ⟨hx, hy⟩ := tiles_split.mp h
  rcases List.mem_append.mp hu with hu | hu
  · exact Or.inr (Or.inr (hx.mem_bounds hu).2)
  · rcases List.mem_cons.mp hu with rfl | hu
    · exact Or.inl rfl
    · exact Or.inr (Or.inl (hy.mem_bounds hu).1)

/-- When no tile is empty, two tiles with the same start are the same. -/
theorem eq_of_start (h : Tiles a ts b) (hpos : ∀ t ∈ ts, 0 < t.size) (ht : t ∈ ts) (hu : u ∈ ts)
    (he : t.start = u.start) : t = u := by
  have h1 := hpos t ht
  have h2 := hpos u hu
  rcases h.disjoint ht hu with rfl | hd | hd
  · rfl
  · unfold Tile.stop at hd; omega
  · unfold Tile.stop at hd; omega

/-- A tile that does not start the interval has a tile right before it. -/
theorem exists_pred (h : Tiles a (xs ++ t :: ys) b) (ha : a < t.start) :
    ∃ ws p, xs = ws ++ [p] ∧ p.stop = t.start := by
  obtain ⟨hx, -⟩ := tiles_split.mp h
  rcases List.eq_nil_or_concat' xs with rfl | ⟨ws, p, rfl⟩
  · exact absurd hx (by simp; omega)
  · obtain ⟨-, hp⟩ := tiles_split.mp hx
    exact ⟨ws, p, rfl, hp⟩

/-- A tile that stops the interval is the last one, when no tile is empty. -/
theorem last_of_stop (h : Tiles a (xs ++ t :: ys) b) (hpos : ∀ u ∈ ys, 0 < u.size)
    (hb : t.stop = b) : ys = [] := by
  obtain ⟨-, hy⟩ := tiles_split.mp h
  cases ys with
  | nil => rfl
  | cons u us =>
    have hpos := hpos u (by simp)
    have hle := (hy.mem_bounds (List.mem_cons_self ..)).2
    have hst : u.start = t.stop := hy.1
    unfold Tile.stop at *
    omega

end Tiles

end Infra
