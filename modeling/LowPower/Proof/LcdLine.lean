import LowPower.Lib.Dda
import LowPower.Proof.Lcd
import Mathlib.Data.List.Range

/-!
# Slanted lines

The two errors of `lcd_draw_line` are the accumulators of `Dda`, so the cursor is known after every
round (`cursorAt`): the loop plots `distance + 2` points (`lcdDrawLine_returns`), from the first end
to the second, without a gap and within a pixel of the segment (`lcdDrawLine_slanted`).
-/

namespace LowPower

open Dda

/-- One axis of the loop is an accumulator. -/
theorem lineAdvance_eq {a b : ℤ} {D : ℕ} (hD : 0 < D) (h : (b - a).natAbs ≤ D) (k : ℕ) :
    Lcd.lineAdvance (b - a).natAbs D (b - a).sign (err (b - a).natAbs D k) (pos a b D k) =
      ((err (b - a).natAbs D (k + 1) : ℤ), pos a b D (k + 1)) := by
  have hround := accumulate (k := k) hD h
  unfold Lcd.lineAdvance pos
  by_cases hover : D < err (b - a).natAbs D k + (b - a).natAbs
  · rw [if_pos hover, Prod.mk.injEq] at hround
    obtain ⟨herr, hsteps⟩ := hround
    have hover' : (err (b - a).natAbs D k : ℤ) + (b - a).natAbs > D := by exact_mod_cast hover
    rw [if_pos hover', herr, hsteps, Prod.mk.injEq]
    constructor
    · omega
    · push_cast
      ring
  · rw [if_neg hover, Prod.mk.injEq] at hround
    obtain ⟨herr, hsteps⟩ := hround
    have hunder : ¬(err (b - a).natAbs D k : ℤ) + (b - a).natAbs > D := by exact_mod_cast hover
    rw [if_neg hunder, herr, hsteps, Nat.cast_add]

theorem lineAxis_eq (d : ℤ) : Lcd.lineAxis d = (d.sign, (d.natAbs : ℤ)) := by
  unfold Lcd.lineAxis
  split
  · rename_i hpos
    rw [Int.sign_eq_one_of_pos hpos, Int.natAbs_of_nonneg (Int.le_of_lt hpos)]
  · split
    · rename_i hzero
      rw [hzero]
      rfl
    · rw [Int.sign_eq_neg_one_of_neg (by omega), Int.ofNat_natAbs_of_nonpos (by omega)]

namespace Lcd

/-- Points plotted one after the other. -/
def plot (points : List (U16 × U16)) (lcd : Lcd) : Lcd :=
  points.foldl (fun lcd p => lcd.lcdDrawPoint p.1 p.2) lcd

section Slanted

variable {x1 y1 x2 y2 : U16}

/-- The longer of the two sides. -/
def distance (x1 y1 x2 y2 : U16) : ℕ :=
  max ((x2.toNat : ℤ) - x1.toNat).natAbs ((y2.toNat : ℤ) - y1.toNat).natAbs

/-- The point plotted in round `k`. -/
def pointAt (x1 y1 x2 y2 : U16) (k : ℕ) : U16 × U16 :=
  (BitVec.ofInt 16 (pos x1.toNat x2.toNat (distance x1 y1 x2 y2) k),
    BitVec.ofInt 16 (pos y1.toNat y2.toNat (distance x1 y1 x2 y2) k))

/-- The points of the whole line. -/
def linePoints (x1 y1 x2 y2 : U16) : List (U16 × U16) :=
  (List.range (distance x1 y1 x2 y2 + 2)).map (pointAt x1 y1 x2 y2)

/-- The cursor before round `k`. -/
def cursorAt (x1 y1 x2 y2 : U16) (lcd : Lcd) (k : ℕ) : Cursor where
  t := BitVec.ofNat 16 k
  xerr := err ((x2.toNat : ℤ) - x1.toNat).natAbs (distance x1 y1 x2 y2) k
  yerr := err ((y2.toNat : ℤ) - y1.toNat).natAbs (distance x1 y1 x2 y2) k
  row := pos x1.toNat x2.toNat (distance x1 y1 x2 y2) k
  col := pos y1.toNat y2.toNat (distance x1 y1 x2 y2) k
  lcd := lcd.plot ((List.range k).map (pointAt x1 y1 x2 y2))

theorem distance_x (x1 y1 x2 y2 : U16) :
    ((x2.toNat : ℤ) - x1.toNat).natAbs ≤ distance x1 y1 x2 y2 := Nat.le_max_left _ _

theorem distance_y (x1 y1 x2 y2 : U16) :
    ((y2.toNat : ℤ) - y1.toNat).natAbs ≤ distance x1 y1 x2 y2 := Nat.le_max_right _ _

/-- The longer side is the distance. -/
theorem distance_eq_x
    (h : ((y2.toNat : ℤ) - y1.toNat).natAbs ≤ ((x2.toNat : ℤ) - x1.toNat).natAbs) :
    ((x2.toNat : ℤ) - x1.toNat).natAbs = distance x1 y1 x2 y2 := (Nat.max_eq_left h).symm

theorem distance_eq_y
    (h : ((x2.toNat : ℤ) - x1.toNat).natAbs ≤ ((y2.toNat : ℤ) - y1.toNat).natAbs) :
    ((y2.toNat : ℤ) - y1.toNat).natAbs = distance x1 y1 x2 y2 := (Nat.max_eq_right h).symm

theorem distance_pos (hne : y1 ≠ y2) : 0 < distance x1 y1 x2 y2 := by
  have hy := distance_y x1 y1 x2 y2
  rw [ne_eq, ← BitVec.toNat_inj] at hne
  omega

theorem cursorAt_zero (lcd : Lcd) :
    cursorAt x1 y1 x2 y2 lcd 0 = ⟨0, 0, 0, x1.toNat, y1.toNat, lcd⟩ := by
  simp [cursorAt, plot]

/-- **One round of the loop.** -/
theorem lineStep_cursorAt (hne : y1 ≠ y2) (lcd : Lcd) (k : ℕ) :
    lineStep ((x2.toNat : ℤ) - x1.toNat).natAbs ((y2.toNat : ℤ) - y1.toNat).natAbs
        (distance x1 y1 x2 y2) ((x2.toNat : ℤ) - x1.toNat).sign ((y2.toNat : ℤ) - y1.toNat).sign
        (cursorAt x1 y1 x2 y2 lcd k) =
      cursorAt x1 y1 x2 y2 lcd (k + 1) := by
  have hD : 0 < distance x1 y1 x2 y2 := distance_pos hne
  simp only [lineStep, cursorAt]
  rw [lineAdvance_eq hD (distance_x x1 y1 x2 y2), lineAdvance_eq hD (distance_y x1 y1 x2 y2)]
  have ht : BitVec.ofNat 16 k + 1 = BitVec.ofNat 16 (k + 1) := (BitVec.ofNat_add k 1).symm
  have hplot : (lcd.plot ((List.range k).map (pointAt x1 y1 x2 y2))).lcdDrawPoint
      (pointAt x1 y1 x2 y2 k).1 (pointAt x1 y1 x2 y2 k).2 =
        lcd.plot ((List.range (k + 1)).map (pointAt x1 y1 x2 y2)) := by
    rw [List.range_succ, List.map_append, plot, plot, List.foldl_append]
    rfl
  rw [ht, ← hplot]
  rfl

/-- **The loop returns**, with every point plotted. -/
theorem lcdDrawLine_returns (hx1 : x1.toNat < lcdW) (hx2 : x2.toNat < lcdW) (hy1 : y1.toNat < lcdH)
    (hy2 : y2.toNat < lcdH) (hne : y1 ≠ y2) (lcd : Lcd) :
    Returns (fun fuel => lcdDrawLine x1 y1 x2 y2 fuel lcd)
      (lcd.plot (linePoints x1 y1 x2 y2)) := by
  have hw : lcdW = 240 := rfl
  have hh : lcdH = 240 := rfl
  have hD : distance x1 y1 x2 y2 < 240 := by
    unfold distance
    omega
  have hmax : (if ((x2.toNat : ℤ) - x1.toNat).natAbs > (((y2.toNat : ℤ) - y1.toNat).natAbs : ℤ) then
      (((x2.toNat : ℤ) - x1.toNat).natAbs : ℤ) else ((y2.toNat : ℤ) - y1.toNat).natAbs) =
        distance x1 y1 x2 y2 := by
    unfold distance
    split <;> omega
  unfold lcdDrawLine
  simp only [if_neg hne, lineAxis_eq, hmax]
  rw [← cursorAt_zero]
  refine Returns.map (f := fun fuel => loop _ _ fuel (cursorAt x1 y1 x2 y2 lcd 0))
    (a := cursorAt x1 y1 x2 y2 lcd (distance x1 y1 x2 y2 + 2)) ?_ Cursor.lcd
  apply Returns.loop_count
  · intro k hk
    rw [decide_eq_true_eq, cursorAt, BitVec.toNat_ofNat]
    omega
  · intro k hk
    exact Returns.of_eq fun _ => congrArg some (lineStep_cursorAt hne lcd k)
  · rw [decide_eq_false_iff_not, cursorAt, BitVec.toNat_ofNat]
    omega

end Slanted

/-- A point on the panel. -/
def pointStroke (color : U16) (p : U16 × U16) : Stroke := ⟨p.1, p.2, p.1, p.2, [color]⟩

@[simp]
theorem lcdWriteHalfWord_foreColor (da : U16) (lcd : Lcd) :
    (lcd.lcdWriteHalfWord da).foreColor = lcd.foreColor := rfl

/-- **Every plotted point is on the panel.** -/
theorem plot_strokes (points : List (U16 × U16)) (lcd : Lcd) :
    (lcd.plot points).strokes = lcd.strokes ++ points.map (pointStroke lcd.foreColor) := by
  induction points generalizing lcd with
  | nil => simp [plot]
  | cons p points ih =>
    have hpoint : (lcd.lcdDrawPoint p.1 p.2).strokes =
        lcd.strokes ++ [pointStroke lcd.foreColor p] := (lcdDrawPoint_draws p.1 p.2 lcd).strokes
    have hcolor : (lcd.lcdDrawPoint p.1 p.2).foreColor = lcd.foreColor := by
      simp only [lcdDrawPoint, lcdWriteHalfWord_foreColor, lcdAddressSet_foreColor]
    have hcons : lcd.plot (p :: points) = (lcd.lcdDrawPoint p.1 p.2).plot points := by
      simp only [plot, List.foldl_cons]
    rw [hcons, ih, hpoint, hcolor, List.append_assoc, List.map_cons, List.singleton_append]

section Shape

variable {x1 y1 x2 y2 : U16}

/-- A coordinate on the screen is not cut by the conversion. -/
theorem ofInt_pos {a b : U16} {D k : ℕ} (ha : a.toNat < 240) (hb : b.toNat < 240) (hD : 0 < D)
    (h : ((b.toNat : ℤ) - a.toNat).natAbs ≤ D) (hk : k ≤ D + 1) :
    ((BitVec.ofInt 16 (pos a.toNat b.toNat D k)).toNat : ℤ) = pos a.toNat b.toNat D k := by
  have hmem := pos_mem hD h hk
  rw [BitVec.toNat_ofInt]
  omega

/-- The coordinates of the points, for lines on the screen. -/
theorem pointAt_eq (hx1 : x1.toNat < lcdW) (hx2 : x2.toNat < lcdW) (hy1 : y1.toNat < lcdH)
    (hy2 : y2.toNat < lcdH) (hne : y1 ≠ y2) {k : ℕ} (hk : k ≤ distance x1 y1 x2 y2 + 1) :
    ((pointAt x1 y1 x2 y2 k).1.toNat : ℤ) = pos x1.toNat x2.toNat (distance x1 y1 x2 y2) k ∧
      ((pointAt x1 y1 x2 y2 k).2.toNat : ℤ) = pos y1.toNat y2.toNat (distance x1 y1 x2 y2) k :=
  ⟨ofInt_pos hx1 hx2 (distance_pos hne) (distance_x x1 y1 x2 y2) hk,
    ofInt_pos hy1 hy2 (distance_pos hne) (distance_y x1 y1 x2 y2) hk⟩

/-- The point lies between the ends in both coordinates. -/
def InBox (x1 y1 x2 y2 : U16) (p : U16 × U16) : Prop :=
  (min x1.toNat x2.toNat ≤ p.1.toNat ∧ p.1.toNat ≤ max x1.toNat x2.toNat) ∧
    (min y1.toNat y2.toNat ≤ p.2.toNat ∧ p.2.toNat ≤ max y1.toNat y2.toNat)

/-- Along the minor axis the point is less than a pixel from the segment. -/
def NearSegment (x1 y1 x2 y2 : U16) (p : U16 × U16) : Prop :=
  (((y2.toNat : ℤ) - y1.toNat).natAbs ≤ ((x2.toNat : ℤ) - x1.toNat).natAbs →
    |(p.2.toNat : ℚ) -
      (y1.toNat + (p.1.toNat - x1.toNat) * (y2.toNat - y1.toNat) / (x2.toNat - x1.toNat))| < 1) ∧
  (((x2.toNat : ℤ) - x1.toNat).natAbs ≤ ((y2.toNat : ℤ) - y1.toNat).natAbs →
    |(p.1.toNat : ℚ) -
      (x1.toNat + (p.2.toNat - y1.toNat) * (x2.toNat - x1.toNat) / (y2.toNat - y1.toNat))| < 1)

/-- Neighbours in both coordinates, or the same point. -/
def Adjacent (p q : U16 × U16) : Prop :=
  |(q.1.toNat : ℤ) - p.1.toNat| ≤ 1 ∧ |(q.2.toNat : ℤ) - p.2.toNat| ≤ 1

/-- Every position of the major axis between the ends is that of some point. -/
def CoversMajor (x1 y1 x2 y2 : U16) (points : List (U16 × U16)) : Prop :=
  (((y2.toNat : ℤ) - y1.toNat).natAbs ≤ ((x2.toNat : ℤ) - x1.toNat).natAbs →
    ∀ v, min x1.toNat x2.toNat ≤ v → v ≤ max x1.toNat x2.toNat →
      ∃ p ∈ points, p.1.toNat = v) ∧
  (((x2.toNat : ℤ) - x1.toNat).natAbs ≤ ((y2.toNat : ℤ) - y1.toNat).natAbs →
    ∀ v, min y1.toNat y2.toNat ≤ v → v ≤ max y1.toNat y2.toNat →
      ∃ p ∈ points, p.2.toNat = v)

theorem pointAt_mem {k : ℕ} (hk : k ≤ distance x1 y1 x2 y2 + 1) :
    pointAt x1 y1 x2 y2 k ∈ linePoints x1 y1 x2 y2 :=
  List.mem_map_of_mem (List.mem_range.mpr (by omega))

variable (hx1 : x1.toNat < lcdW) (hx2 : x2.toNat < lcdW) (hy1 : y1.toNat < lcdH)
  (hy2 : y2.toNat < lcdH) (hne : y1 ≠ y2)

include hx1 hx2 hy1 hy2 hne

theorem pointAt_zero : pointAt x1 y1 x2 y2 0 = (x1, y1) := by
  obtain ⟨hx, hy⟩ := pointAt_eq hx1 hx2 hy1 hy2 hne (Nat.zero_le _)
  rw [pos_zero] at hx hy
  exact Prod.ext (BitVec.eq_of_toNat_eq (Int.ofNat.inj hx)) (BitVec.eq_of_toNat_eq (Int.ofNat.inj hy))

theorem pointAt_last : pointAt x1 y1 x2 y2 (distance x1 y1 x2 y2 + 1) = (x2, y2) := by
  obtain ⟨hx, hy⟩ := pointAt_eq hx1 hx2 hy1 hy2 hne (Nat.le_refl _)
  rw [pos_last (distance_pos hne) (distance_x x1 y1 x2 y2)] at hx
  rw [pos_last (distance_pos hne) (distance_y x1 y1 x2 y2)] at hy
  exact Prod.ext (BitVec.eq_of_toNat_eq (Int.ofNat.inj hx)) (BitVec.eq_of_toNat_eq (Int.ofNat.inj hy))

theorem pointAt_adjacent {k : ℕ} (hk : k < distance x1 y1 x2 y2 + 1) :
    Adjacent (pointAt x1 y1 x2 y2 k) (pointAt x1 y1 x2 y2 (k + 1)) := by
  obtain ⟨hx, hy⟩ := pointAt_eq hx1 hx2 hy1 hy2 hne (Nat.le_of_lt hk)
  obtain ⟨hx', hy'⟩ := pointAt_eq hx1 hx2 hy1 hy2 hne (Nat.succ_le_of_lt hk)
  rw [Adjacent, hx, hx', hy, hy']
  exact ⟨pos_succ (distance_pos hne) (distance_x x1 y1 x2 y2),
    pos_succ (distance_pos hne) (distance_y x1 y1 x2 y2)⟩

theorem pointAt_inBox {k : ℕ} (hk : k ≤ distance x1 y1 x2 y2 + 1) :
    InBox x1 y1 x2 y2 (pointAt x1 y1 x2 y2 k) := by
  obtain ⟨hx, hy⟩ := pointAt_eq hx1 hx2 hy1 hy2 hne hk
  have hmemx := pos_mem (distance_pos hne) (distance_x x1 y1 x2 y2) hk
  have hmemy := pos_mem (distance_pos hne) (distance_y x1 y1 x2 y2) hk
  unfold InBox
  omega

theorem pointAt_near {k : ℕ} (hk : k ≤ distance x1 y1 x2 y2 + 1) :
    NearSegment x1 y1 x2 y2 (pointAt x1 y1 x2 y2 k) := by
  obtain ⟨hx, hy⟩ := pointAt_eq hx1 hx2 hy1 hy2 hne hk
  have hD : 0 < distance x1 y1 x2 y2 := distance_pos hne
  have hx' : ((pointAt x1 y1 x2 y2 k).1.toNat : ℚ) =
      (pos x1.toNat x2.toNat (distance x1 y1 x2 y2) k : ℤ) := by exact_mod_cast hx
  have hy' : ((pointAt x1 y1 x2 y2 k).2.toNat : ℚ) =
      (pos y1.toNat y2.toNat (distance x1 y1 x2 y2) k : ℤ) := by exact_mod_cast hy
  rw [NearSegment, hx', hy']
  constructor
  · intro hmajor
    exact_mod_cast pos_slope hD (distance_eq_x hmajor) (distance_y x1 y1 x2 y2) k
  · intro hmajor
    exact_mod_cast pos_slope hD (distance_eq_y hmajor) (distance_x x1 y1 x2 y2) k

theorem linePoints_covers : CoversMajor x1 y1 x2 y2 (linePoints x1 y1 x2 y2) := by
  have hD : 0 < distance x1 y1 x2 y2 := distance_pos hne
  constructor
  · intro hmajor v hlow hhigh
    obtain ⟨k, hk, hpos⟩ := pos_full (v := v) hD (distance_eq_x hmajor) (by omega) (by omega)
    obtain ⟨hx, -⟩ := pointAt_eq hx1 hx2 hy1 hy2 hne hk
    exact ⟨_, pointAt_mem hk, by omega⟩
  · intro hmajor v hlow hhigh
    obtain ⟨k, hk, hpos⟩ := pos_full (v := v) hD (distance_eq_y hmajor) (by omega) (by omega)
    obtain ⟨-, hy⟩ := pointAt_eq hx1 hx2 hy1 hy2 hne hk
    exact ⟨_, pointAt_mem hk, by omega⟩

/-- **A slanted line is drawn completely and only where it belongs.** The loop ends; the points it
plots lead from the first end to the second without a gap, stay between the ends and less than a
pixel from the segment, and visit every position of the major axis. -/
theorem lcdDrawLine_slanted (lcd : Lcd) :
    ∃ (out : Lcd) (points : List (U16 × U16)),
      Returns (fun fuel => lcdDrawLine x1 y1 x2 y2 fuel lcd) out ∧
      out.strokes = lcd.strokes ++ points.map (pointStroke lcd.foreColor) ∧
      points.head? = some (x1, y1) ∧ points.getLast? = some (x2, y2) ∧
      points.IsChain Adjacent ∧
      (∀ p ∈ points, InBox x1 y1 x2 y2 p ∧ NearSegment x1 y1 x2 y2 p) ∧
      CoversMajor x1 y1 x2 y2 points := by
  refine ⟨_, linePoints x1 y1 x2 y2, lcdDrawLine_returns hx1 hx2 hy1 hy2 hne lcd,
    plot_strokes _ lcd, ?_, ?_, ?_, ?_, linePoints_covers hx1 hx2 hy1 hy2 hne⟩
  · rw [linePoints, List.range_succ_eq_map]
    exact congrArg some (pointAt_zero hx1 hx2 hy1 hy2 hne)
  · rw [linePoints, List.range_succ, List.map_append, List.map_singleton, List.getLast?_concat]
    exact congrArg some (pointAt_last hx1 hx2 hy1 hy2 hne)
  · rw [linePoints, List.isChain_map, List.isChain_range]
    intro k hk
    exact pointAt_adjacent hx1 hx2 hy1 hy2 hne (by omega)
  · intro p hp
    obtain ⟨k, hk, rfl⟩ := List.mem_map.mp hp
    rw [List.mem_range] at hk
    exact ⟨pointAt_inBox hx1 hx2 hy1 hy2 hne (by omega),
      pointAt_near hx1 hx2 hy1 hy2 hne (by omega)⟩

end Shape

/-- A line across the screen. -/
theorem lcdDrawLine_slanted_corner :
    ∃ (out : Lcd) (points : List (U16 × U16)),
      Returns (fun fuel => lcdDrawLine 239 10 0 200 fuel ⟨0xF800, false, []⟩) out ∧
      out.strokes = points.map (pointStroke 0xF800) ∧ points.head? = some (239, 10) ∧
      points.getLast? = some (0, 200) := by
  obtain ⟨out, points, hreturns, hstrokes, hhead, hlast, -⟩ :=
    @lcdDrawLine_slanted 239 10 0 200 (by decide) (by decide)
      (by decide) (by decide) (by decide) ⟨0xF800, false, []⟩
  exact ⟨out, points, hreturns, hstrokes, hhead, hlast⟩

end Lcd

end LowPower
