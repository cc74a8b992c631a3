import LowPower.Spec.Lcd

/-!
# What the panel is sent

The panel reads the bus: commands 0x2A and 0x2B set the columns and rows of a window, 0x2C starts a
stroke, and the half words after it are the pixels of the window. A fill and a line are judged by
the strokes the panel gets. The plain loops send a pixel for every pixel of the window
(`fillRows_returns`); the buffered paths count the pixels without the last row and column
(`lcdFill_fast`, `lineRow_fast`), so they leave the window unfinished (`lcd_window_iff`).
-/

namespace LowPower

/-! ## The panel -/

/-- A window and the pixels sent to it, in order. -/
structure Stroke where
  x1 : U16
  y1 : U16
  x2 : U16
  y2 : U16
  pixels : List U16
deriving DecidableEq, Repr

def Stroke.add (s : Stroke) (pixels : List U16) : Stroke := { s with pixels := s.pixels ++ pixels }

theorem Stroke.add_nil (s : Stroke) : s.add [] = s := by simp [add]

theorem Stroke.add_add (s : Stroke) (p q : List U16) : (s.add p).add q = s.add (p ++ q) := by
  simp [add]

theorem Stroke.add_replicate (s : Stroke) (n m : ℕ) (color : U16) :
    (s.add (List.replicate n color)).add (List.replicate m color) =
      s.add (List.replicate (n + m) color) := by
  rw [add_add, List.replicate_append_replicate]

structure Panel where
  command : U8
  args : List U8
  columns : U16 × U16
  rows : U16 × U16
  strokes : List Stroke

def addPixel (pixel : U16) (strokes : List Stroke) : List Stroke :=
  match strokes.getLast? with
  | some s => strokes.dropLast ++ [s.add [pixel]]
  | none => []

namespace Panel

def reset : Panel := ⟨0, [], (0, 0), (0, 0), []⟩

/-- A command byte, or the next byte of what the command takes. -/
def receive (p : Panel) (s : Sent) : Panel :=
  if s.dc then
    match p.args ++ [s.byte] with
    | [a, b] =>
      if p.command = 0x2C then { p with args := [], strokes := addPixel (a ++ b) p.strokes }
      else { p with args := [a, b] }
    | [a, b, c, d] =>
      if p.command = 0x2a then { p with args := [a, b, c, d], columns := (a ++ b, c ++ d) }
      else if p.command = 0x2b then { p with args := [a, b, c, d], rows := (a ++ b, c ++ d) }
      else { p with args := [a, b, c, d] }
    | args => { p with args := args }
  else if s.byte = 0x2C then
    { p with
      command := 0x2C
      args := []
      strokes := p.strokes ++ [⟨p.columns.1, p.rows.1, p.columns.2, p.rows.2, []⟩] }
  else { p with command := s.byte, args := [] }

theorem receive_columns (p : Panel) (a b c d : U8) :
    ((((p.receive ⟨false, 0x2a⟩).receive ⟨true, a⟩).receive ⟨true, b⟩).receive ⟨true, c⟩).receive
        ⟨true, d⟩ =
      { p with command := 0x2a, args := [a, b, c, d], columns := (a ++ b, c ++ d) } := by
  simp [receive]

theorem receive_rows (p : Panel) (a b c d : U8) :
    ((((p.receive ⟨false, 0x2b⟩).receive ⟨true, a⟩).receive ⟨true, b⟩).receive ⟨true, c⟩).receive
        ⟨true, d⟩ =
      { p with command := 0x2b, args := [a, b, c, d], rows := (a ++ b, c ++ d) } := by
  simp [receive]

theorem receive_stroke (p : Panel) :
    p.receive ⟨false, 0x2C⟩ =
      { p with
        command := 0x2C
        args := []
        strokes := p.strokes ++ [⟨p.columns.1, p.rows.1, p.columns.2, p.rows.2, []⟩] } := by
  simp [receive]

/-- Two bytes of a stroke are a pixel. -/
theorem receive_pixel {p : Panel} (hcommand : p.command = 0x2C) (hargs : p.args = []) (a b : U8) :
    (p.receive ⟨true, a⟩).receive ⟨true, b⟩ =
      { p with args := [], strokes := addPixel (a ++ b) p.strokes } := by
  simp [receive, hcommand, hargs]

/-- The panel is in the middle of a stroke, after the strokes `l`. -/
structure Draws (p : Panel) (l : List Stroke) (s : Stroke) : Prop where
  command : p.command = 0x2C
  args : p.args = []
  strokes : p.strokes = l ++ [s]

end Panel

theorem addPixel_append (pixel : U16) (l : List Stroke) (s : Stroke) :
    addPixel pixel (l ++ [s]) = l ++ [s.add [pixel]] := by
  simp [addPixel]

/-- The two bytes of a half word are put together again. -/
theorem halfWord_append (da : U16) : (da >>> 8).setWidth 8 ++ da.setWidth 8 = da := by
  apply BitVec.eq_of_toNat_eq
  rw [BitVec.toNat_append, BitVec.toNat_setWidth, BitVec.toNat_setWidth, BitVec.toNat_ushiftRight,
    Nat.shiftRight_eq_div_pow]
  have hlow : da.toNat % 2 ^ 8 < 2 ^ 8 := by omega
  rw [← Nat.shiftLeft_add_eq_or_of_lt hlow, Nat.shiftLeft_eq]
  omega

namespace Lcd

variable {lcd : Lcd} {l : List Stroke} {s : Stroke}

/-- The panel after all that was sent to it. -/
def panel (lcd : Lcd) : Panel := lcd.bus.foldl Panel.receive Panel.reset

def strokes (lcd : Lcd) : List Stroke := lcd.panel.strokes

theorem panel_spiSend (buf : List U8) (lcd : Lcd) :
    (lcd.spiSend buf).panel = (buf.map (⟨lcd.dcPin, ·⟩)).foldl Panel.receive lcd.panel :=
  List.foldl_append

theorem panel_lcdWriteCmd (cmd : U8) (lcd : Lcd) :
    (lcd.lcdWriteCmd cmd).panel = lcd.panel.receive ⟨false, cmd⟩ :=
  panel_spiSend [cmd] (lcd.pinWrite false)

theorem panel_lcdWriteData (data : U8) (lcd : Lcd) :
    (lcd.lcdWriteData data).panel = lcd.panel.receive ⟨true, data⟩ :=
  panel_spiSend [data] (lcd.pinWrite true)

theorem panel_lcdWriteHalfWord (da : U16) (lcd : Lcd) :
    (lcd.lcdWriteHalfWord da).panel =
      (lcd.panel.receive ⟨true, (da >>> 8).setWidth 8⟩).receive ⟨true, da.setWidth 8⟩ :=
  panel_spiSend (halfWord da) (lcd.pinWrite true)

/-- **A window is set and a stroke begun.** -/
theorem lcdAddressSet_draws (x1 y1 x2 y2 : U16) (lcd : Lcd) :
    (lcd.lcdAddressSet x1 y1 x2 y2).panel.Draws lcd.strokes ⟨x1, y1, x2, y2, []⟩ := by
  simp only [lcdAddressSet, panel_lcdWriteCmd, panel_lcdWriteData]
  rw [Panel.receive_columns, Panel.receive_rows, Panel.receive_stroke]
  simp only [halfWord_append]
  exact ⟨rfl, rfl, rfl⟩

/-- A pixel is added to the stroke. -/
theorem lcdWriteHalfWord_draws (h : lcd.panel.Draws l s) (color : U16) :
    (lcd.lcdWriteHalfWord color).panel.Draws l (s.add [color]) := by
  rw [panel_lcdWriteHalfWord, Panel.receive_pixel h.command h.args, halfWord_append, h.strokes,
    addPixel_append]
  exact ⟨h.command, rfl, rfl⟩

/-- A pixel for every round of a loop. -/
theorem iterate_draws (h : lcd.panel.Draws l s) (color : U16) (n : ℕ) :
    ((lcdWriteHalfWord color)^[n] lcd).panel.Draws l (s.add (List.replicate n color)) := by
  induction n with
  | zero => simpa [Stroke.add_nil] using h
  | succ n ih =>
    rw [Function.iterate_succ_apply', List.replicate_succ', ← Stroke.add_add]
    exact lcdWriteHalfWord_draws ih color

/-- A buffer sent at once is the same as its half words sent one by one. -/
theorem spiSend_replicate (color : U16) (n : ℕ) (lcd : Lcd) :
    (lcd.pinWrite true).spiSend (List.replicate n (halfWord color)).flatten =
      (lcdWriteHalfWord color)^[n] (lcd.pinWrite true) := by
  induction n with
  | zero => simp [spiSend]
  | succ n ih =>
    rw [Function.iterate_succ_apply', ← ih, List.replicate_succ', List.flatten_append]
    simp [spiSend, lcdWriteHalfWord, pinWrite]

/-- **A buffer of `n` half words is `n` pixels.** -/
theorem spiSend_draws (h : lcd.panel.Draws l s) (color : U16) (n : ℕ) :
    ((lcd.pinWrite true).spiSend (List.replicate n (halfWord color)).flatten).panel.Draws l
      (s.add (List.replicate n color)) := by
  have hpin : (lcd.pinWrite true).panel.Draws l s := h
  rw [spiSend_replicate]
  exact iterate_draws hpin color n

/-! ## Filling -/

/-- **The chunks of a fast fill** send as many pixels as all their bytes make. -/
theorem fillChunks_draws (h : lcd.panel.Draws l s) (color : U16) (size sizeRemain : U32)
    (heven : size.toNat % 2 = 0) (hrest : sizeRemain ≠ 0 → size = lcdClearSendNumber)
    (hevenRest : sizeRemain.toNat % 2 = 0) :
    (fillChunks color size sizeRemain lcd).panel.Draws l
      (s.add (List.replicate (size.toNat / 2 + sizeRemain.toNat / 2) color)) := by
  induction size, sizeRemain, lcd using fillChunks.induct color generalizing s with
  | case1 size lcd =>
    rw [fillChunks, if_pos rfl]
    exact spiSend_draws h color (size.toNat / 2)
  | case2 size sizeRemain lcd hne hmore ih =>
    have hsent := spiSend_draws h color (size.toNat / 2)
    have hfull : lcdClearSendNumber.toNat = 5760 := rfl
    have hsub : (sizeRemain - lcdClearSendNumber).toNat = sizeRemain.toNat - 5760 := by
      rw [← hfull]
      exact BitVec.toNat_sub_of_le (BitVec.le_of_lt hmore)
    have hcount : size.toNat / 2 + ((sizeRemain - lcdClearSendNumber).toNat / 2) + size.toNat / 2 =
        size.toNat / 2 + sizeRemain.toNat / 2 := by
      have hmore' : 5760 < sizeRemain.toNat := hmore
      rw [hrest hne, hfull, hsub]
      omega
    have hall := ih hsent heven (fun _ => hrest hne) (by omega)
    rw [Stroke.add_replicate, Nat.add_comm, hcount] at hall
    rw [fillChunks, if_neg hne, if_pos hmore]
    exact hall
  | case3 size sizeRemain lcd hne hless ih =>
    have hsent := spiSend_draws h color (size.toNat / 2)
    have hall := ih hsent hevenRest (fun h => absurd rfl h) rfl
    rw [Stroke.add_replicate] at hall
    rw [fillChunks, if_neg hne, if_neg hless]
    exact hall

section Fill

variable {xStart yStart xEnd yEnd : U16}

/-- A row of the plain fill. -/
theorem fillRow_returns (color : U16) (hx : xStart ≤ xEnd) (hxEnd : xEnd.toNat < lcdW)
    (lcd : Lcd) :
    Returns (fun fuel => fillRow color xStart xEnd fuel lcd)
      ((lcdWriteHalfWord color)^[xEnd.toNat - xStart.toNat + 1] lcd) := by
  have hend : xEnd.toNat < 240 := hxEnd
  have hloop := Returns.for_le hx (by omega)
    (g := fun _ (j, lcd) => some (j + 1, lcdWriteHalfWord color lcd))
    (fun j lcd => Returns.of_eq fun _ => rfl) lcd
  exact hloop.map Prod.snd

/-- **The plain fill** sends a pixel for every pixel of the window. -/
theorem fillRows_returns (color : U16) (hx : xStart ≤ xEnd) (hy : yStart ≤ yEnd)
    (hxEnd : xEnd.toNat < lcdW) (hyEnd : yEnd.toNat < lcdH) (lcd : Lcd) :
    Returns (fun fuel => fillRows color xStart yStart xEnd yEnd fuel lcd)
      ((lcdWriteHalfWord color)^[(xEnd.toNat - xStart.toNat + 1) *
        (yEnd.toNat - yStart.toNat + 1)] lcd) := by
  have hend : yEnd.toNat < 240 := hyEnd
  have hloop := Returns.for_le hy (by omega)
    (g := fun fuel (i, lcd) =>
      (fillRow color xStart xEnd fuel lcd).map fun lcd => (i + 1, lcd))
    (fun i lcd => (fillRow_returns color hx hxEnd lcd).map fun lcd => (i + 1, lcd)) lcd
  rw [Function.iterate_mul]
  exact hloop.map Prod.snd

/-- The bytes the fast fill sends, without the last row and column. -/
theorem fillSize_toNat (hx : xStart ≤ xEnd) (hy : yStart ≤ yEnd) (hxEnd : xEnd.toNat < lcdW)
    (hyEnd : yEnd.toNat < lcdH) :
    (fillSize xStart yStart xEnd yEnd).toNat =
      2 * ((xEnd.toNat - xStart.toNat) * (yEnd.toNat - yStart.toNat)) := by
  have hx' : xStart.toNat ≤ xEnd.toNat := hx
  have hy' : yStart.toNat ≤ yEnd.toNat := hy
  have hw : xEnd.toNat < 240 := hxEnd
  have hh : yEnd.toNat < 240 := hyEnd
  have hdx : (xEnd.setWidth 32 - xStart.setWidth 32).toNat = xEnd.toNat - xStart.toNat := by
    bv_omega
  have hdy : (yEnd.setWidth 32 - yStart.setWidth 32).toNat = yEnd.toNat - yStart.toNat := by
    bv_omega
  have hprod : (xEnd.toNat - xStart.toNat) * (yEnd.toNat - yStart.toNat) ≤ 240 * 240 :=
    Nat.mul_le_mul (by omega) (by omega)
  have htwo : (2 : U32).toNat = 2 := rfl
  rw [fillSize, BitVec.toNat_mul, BitVec.toNat_mul, hdx, hdy, htwo]
  omega

/-- The bytes of the first chunk, which are the bytes asked of the heap. -/
def firstChunk (xStart yStart xEnd yEnd : U16) : U32 :=
  BitVec.ofNat 32
    (min (2 * ((xEnd.toNat - xStart.toNat) * (yEnd.toNat - yStart.toNat))) lcdClearSendNumber.toNat)

/-- The chunks the size is split into. -/
theorem fillSize_split (hx : xStart ≤ xEnd) (hy : yStart ≤ yEnd) (hxEnd : xEnd.toNat < lcdW)
    (hyEnd : yEnd.toNat < lcdH) :
    ∃ sizeRemain, (if fillSize xStart yStart xEnd yEnd > lcdClearSendNumber then
        (lcdClearSendNumber, fillSize xStart yStart xEnd yEnd - lcdClearSendNumber)
      else (fillSize xStart yStart xEnd yEnd, 0)) =
        (firstChunk xStart yStart xEnd yEnd, sizeRemain) ∧
      (firstChunk xStart yStart xEnd yEnd).toNat % 2 = 0 ∧ sizeRemain.toNat % 2 = 0 ∧
      (sizeRemain ≠ 0 → firstChunk xStart yStart xEnd yEnd = lcdClearSendNumber) ∧
      (firstChunk xStart yStart xEnd yEnd).toNat / 2 + sizeRemain.toNat / 2 =
        (xEnd.toNat - xStart.toNat) * (yEnd.toNat - yStart.toNat) := by
  have hsize := fillSize_toNat hx hy hxEnd hyEnd
  have hfull : lcdClearSendNumber.toNat = 5760 := rfl
  have hlt := (fillSize xStart yStart xEnd yEnd).isLt
  split
  · rename_i hmore
    have hmore' : 5760 < (fillSize xStart yStart xEnd yEnd).toNat := hmore
    have hchunk : firstChunk xStart yStart xEnd yEnd = lcdClearSendNumber := by
      rw [firstChunk, Nat.min_eq_right (by omega)]
      rfl
    have hsub : (fillSize xStart yStart xEnd yEnd - lcdClearSendNumber).toNat =
        (fillSize xStart yStart xEnd yEnd).toNat - 5760 :=
      BitVec.toNat_sub_of_le (BitVec.le_of_lt hmore)
    refine ⟨_, by rw [hchunk], ?_, ?_, fun _ => hchunk, ?_⟩
    · rw [hchunk, hfull]
    · omega
    · rw [hchunk, hfull]
      omega
  · rename_i hless
    have hless' : ¬5760 < (fillSize xStart yStart xEnd yEnd).toNat := hless
    have hchunk : firstChunk xStart yStart xEnd yEnd = fillSize xStart yStart xEnd yEnd := by
      rw [firstChunk, Nat.min_eq_left (by omega), ← hsize, BitVec.ofNat_toNat, BitVec.setWidth_eq]
    refine ⟨0, by rw [hchunk], ?_, rfl, fun h => absurd rfl h, ?_⟩
    · rw [hchunk]
      omega
    · rw [hchunk, hsize]
      simp

/-- **Without a buffer** every pixel of the window is sent. -/
theorem lcdFill_plain {heap : U32 → Bool} (color : U16) (hx : xStart ≤ xEnd) (hy : yStart ≤ yEnd)
    (hxEnd : xEnd.toNat < lcdW) (hyEnd : yEnd.toNat < lcdH) (lcd : Lcd)
    (hheap : rtMalloc heap (firstChunk xStart yStart xEnd yEnd) = false) :
    ∃ out, Returns (fun fuel => lcdFill heap xStart yStart xEnd yEnd color fuel lcd) out ∧
      out.strokes = lcd.strokes ++ [⟨xStart, yStart, xEnd, yEnd,
        List.replicate ((xEnd.toNat - xStart.toNat + 1) * (yEnd.toNat - yStart.toNat + 1))
          color⟩] := by
  obtain ⟨sizeRemain, hsplit, -⟩ := fillSize_split hx hy hxEnd hyEnd
  have hrows := fillRows_returns color hx hy hxEnd hyEnd
    (lcd.lcdAddressSet xStart yStart xEnd yEnd)
  have hdraws := iterate_draws (lcdAddressSet_draws xStart yStart xEnd yEnd lcd) color
    ((xEnd.toNat - xStart.toNat + 1) * (yEnd.toNat - yStart.toNat + 1))
  refine ⟨_, ?_, hdraws.strokes⟩
  simp only [lcdFill, hsplit, hheap, Bool.false_eq_true, if_false]
  exact hrows

/-- **With a buffer** the pixels of the last row and column are not sent. -/
theorem lcdFill_fast {heap : U32 → Bool} (color : U16) (hx : xStart ≤ xEnd) (hy : yStart ≤ yEnd)
    (hxEnd : xEnd.toNat < lcdW) (hyEnd : yEnd.toNat < lcdH) (lcd : Lcd)
    (hheap : rtMalloc heap (firstChunk xStart yStart xEnd yEnd) = true) :
    ∃ out, Returns (fun fuel => lcdFill heap xStart yStart xEnd yEnd color fuel lcd) out ∧
      out.strokes = lcd.strokes ++ [⟨xStart, yStart, xEnd, yEnd,
        List.replicate ((xEnd.toNat - xStart.toNat) * (yEnd.toNat - yStart.toNat)) color⟩] := by
  obtain ⟨sizeRemain, hsplit, heven, hevenRest, hrest, hcount⟩ := fillSize_split hx hy hxEnd hyEnd
  have hdraws := fillChunks_draws (lcdAddressSet_draws xStart yStart xEnd yEnd lcd) color _ _ heven
    hrest hevenRest
  rw [hcount] at hdraws
  refine ⟨_, Returns.of_eq fun fuel => ?_, hdraws.strokes⟩
  simp only [lcdFill, hsplit, hheap, if_true]

end Fill

/-! ## Lines on a row -/

@[simp]
theorem lcdWriteCmd_foreColor (cmd : U8) (lcd : Lcd) :
    (lcd.lcdWriteCmd cmd).foreColor = lcd.foreColor := rfl

@[simp]
theorem lcdWriteData_foreColor (data : U8) (lcd : Lcd) :
    (lcd.lcdWriteData data).foreColor = lcd.foreColor := rfl

@[simp]
theorem lcdAddressSet_foreColor (x1 y1 x2 y2 : U16) (lcd : Lcd) :
    (lcd.lcdAddressSet x1 y1 x2 y2).foreColor = lcd.foreColor := by
  simp only [lcdAddressSet, lcdWriteCmd_foreColor, lcdWriteData_foreColor]

theorem sendRow_draws (h : lcd.panel.Draws l s) (xOffset : U16) :
    (lcd.sendRow xOffset).panel.Draws l
      (s.add (List.replicate xOffset.toNat lcd.foreColor)) := by
  unfold sendRow
  exact spiSend_draws h lcd.foreColor xOffset.toNat

/-- **A point** is a window of one pixel, and the pixel. -/
theorem lcdDrawPoint_draws (x y : U16) (lcd : Lcd) :
    (lcd.lcdDrawPoint x y).panel.Draws lcd.strokes ⟨x, y, x, y, [lcd.foreColor]⟩ := by
  simp only [lcdDrawPoint, lcdAddressSet_foreColor]
  exact lcdWriteHalfWord_draws (lcdAddressSet_draws x y x y lcd) lcd.foreColor

/-- The first and the last column of a line on one row. -/
def leftEnd (x1 x2 : U16) : U16 := if x1 < x2 then x1 else x2
def rightEnd (x1 x2 : U16) : U16 := if x1 < x2 then x2 else x1

/-- **The fast path of a line** sends no pixel for its last column. -/
theorem lineRow_fast {x1 x2 : U16} (hne : x1 ≠ x2) (y : U16) (lcd : Lcd) :
    (lcd.lineRow x1 y x2 y).strokes =
      lcd.strokes ++ [⟨leftEnd x1 x2, y, rightEnd x1 x2, y,
        List.replicate ((rightEnd x1 x2).toNat - (leftEnd x1 x2).toNat) lcd.foreColor⟩] := by
  unfold lineRow leftEnd rightEnd
  split
  · rename_i hlt
    have hdraws := sendRow_draws (lcdAddressSet_draws x1 y x2 y lcd) (x2 - x1)
    rw [BitVec.toNat_sub_of_le (BitVec.le_of_lt hlt), lcdAddressSet_foreColor] at hdraws
    exact hdraws.strokes
  · rename_i hle
    have hlt : x2 < x1 := by bv_omega
    have hdraws := sendRow_draws (lcdAddressSet_draws x2 y x1 y lcd) (x1 - x2)
    rw [BitVec.toNat_sub_of_le (BitVec.le_of_lt hlt), lcdAddressSet_foreColor] at hdraws
    rw [if_pos hlt]
    exact hdraws.strokes

/-! ## The windows that are filled -/

/-- The fill sends the window, and one pixel of the colour for every pixel of it. -/
def FillsWindow (heap : U32 → Bool) (xStart yStart xEnd yEnd color : U16) (lcd : Lcd) : Prop :=
  ∃ out, Returns (fun fuel => lcdFill heap xStart yStart xEnd yEnd color fuel lcd) out ∧
    out.strokes = lcd.strokes ++ [⟨xStart, yStart, xEnd, yEnd,
      List.replicate ((xEnd.toNat - xStart.toNat + 1) * (yEnd.toNat - yStart.toNat + 1)) color⟩]

/-- The line sends the window of its row, and one pixel for every pixel of it. -/
def DrawsRow (x1 x2 y : U16) (lcd : Lcd) : Prop :=
  ∃ out, Returns (fun fuel => lcdDrawLine x1 y x2 y fuel lcd) out ∧
    out.strokes = lcd.strokes ++ [⟨leftEnd x1 x2, y, rightEnd x1 x2, y,
      List.replicate ((rightEnd x1 x2).toNat - (leftEnd x1 x2).toNat + 1) lcd.foreColor⟩]

/-- Two strokes that differ in the number of pixels are not the same. -/
theorem strokes_ne {out : Lcd} {n m : ℕ} {color : U16} (hnm : n ≠ m)
    (h : out.strokes = l ++ [⟨s.x1, s.y1, s.x2, s.y2, List.replicate n color⟩]) :
    out.strokes ≠ l ++ [⟨s.x1, s.y1, s.x2, s.y2, List.replicate m color⟩] := by
  intro heq
  rw [h, List.append_cancel_left_eq, List.singleton_inj, Stroke.mk.injEq] at heq
  exact hnm (by simpa using congrArg List.length heq.2.2.2.2)

section Windows

variable {xStart yStart xEnd yEnd : U16}

/-- A fill is complete exactly when it gets no buffer. -/
theorem fillsWindow_iff (heap : U32 → Bool) (lcd : Lcd) (color : U16) (hx : xStart ≤ xEnd)
    (hxEnd : xEnd.toNat < lcdW) (hy : yStart ≤ yEnd) (hyEnd : yEnd.toNat < lcdH) :
    FillsWindow heap xStart yStart xEnd yEnd color lcd ↔
      rtMalloc heap (firstChunk xStart yStart xEnd yEnd) = false := by
  constructor
  · rintro ⟨out, hreturns, hstrokes⟩
    by_contra hheap
    rw [Bool.not_eq_false] at hheap
    obtain ⟨out', hreturns', hstrokes'⟩ := lcdFill_fast color hx hy hxEnd hyEnd lcd hheap
    obtain rfl := hreturns.unique hreturns'
    refine strokes_ne (s := ⟨xStart, yStart, xEnd, yEnd, []⟩) ?_ hstrokes' hstrokes
    rw [Nat.add_mul, Nat.mul_add]
    omega
  · intro hheap
    exact lcdFill_plain color hx hy hxEnd hyEnd lcd hheap

/-- No buffer is asked for when a side has no length. -/
theorem firstChunk_eq_zero (hx : xStart ≤ xEnd) (hy : yStart ≤ yEnd) :
    firstChunk xStart yStart xEnd yEnd = 0 ↔ xStart = xEnd ∨ yStart = yEnd := by
  have hx' : xStart.toNat ≤ xEnd.toNat := hx
  have hy' : yStart.toNat ≤ yEnd.toNat := hy
  have hfull : lcdClearSendNumber.toNat = 5760 := rfl
  have hzero : (0 : U32).toNat = 0 := rfl
  rw [firstChunk, ← BitVec.toNat_inj, BitVec.toNat_ofNat, hfull, hzero, Nat.mod_eq_of_lt (by omega)]
  have hprod : (xEnd.toNat - xStart.toNat) * (yEnd.toNat - yStart.toNat) = 0 ↔
      xStart = xEnd ∨ yStart = yEnd := by
    rw [Nat.mul_eq_zero, ← BitVec.toNat_inj, ← BitVec.toNat_inj]
    omega
  rw [← hprod]
  omega

/-- A line on one row is complete exactly when it is a point. -/
theorem drawsRow_iff (x1 x2 y : U16) (lcd : Lcd) : DrawsRow x1 x2 y lcd ↔ x1 = x2 := by
  have hreturns : Returns (fun fuel => lcdDrawLine x1 y x2 y fuel lcd) (lcd.lineRow x1 y x2 y) :=
    Returns.of_eq fun fuel => if_pos rfl
  constructor
  · rintro ⟨out, hout, hstrokes⟩
    by_contra hne
    obtain rfl := hout.unique hreturns
    have hcount := Nat.ne_of_lt (Nat.lt_succ_self ((rightEnd x1 x2).toNat - (leftEnd x1 x2).toNat))
    exact strokes_ne (s := ⟨leftEnd x1 x2, y, rightEnd x1 x2, y, []⟩) hcount (lineRow_fast hne y lcd)
      hstrokes
  · rintro rfl
    have hirrefl : ¬x1 < x1 := BitVec.lt_irrefl x1
    have hdraws := lcdDrawPoint_draws x1 y lcd
    refine ⟨_, hreturns, ?_⟩
    rw [lineRow, if_neg hirrefl, if_neg hirrefl, leftEnd, rightEnd, if_neg hirrefl, Nat.sub_self]
    exact hdraws.strokes

end Windows

end Lcd

open Lcd

/-- **The buffered paths leave the window unfinished.** A fill sends the whole window exactly when
it gets no buffer, for want of memory or of bytes to ask for; a line on one row exactly when it is a
point. -/
theorem lcd_window_iff (heap : U32 → Bool) (lcd : Lcd) {xStart yStart xEnd yEnd : U16}
    (color : U16) (hx : xStart ≤ xEnd) (hxEnd : xEnd.toNat < lcdW) (hy : yStart ≤ yEnd)
    (hyEnd : yEnd.toNat < lcdH) (x1 x2 y : U16) :
    (FillsWindow heap xStart yStart xEnd yEnd color lcd ↔
        xStart = xEnd ∨ yStart = yEnd ∨ heap (firstChunk xStart yStart xEnd yEnd) = false) ∧
      (DrawsRow x1 x2 y lcd ↔ x1 = x2) := by
  refine ⟨?_, drawsRow_iff x1 x2 y lcd⟩
  rw [fillsWindow_iff heap lcd color hx hxEnd hy hyEnd, rtMalloc, Bool.and_eq_false_iff,
    decide_eq_false_iff_not, not_not, firstChunk_eq_zero hx hy, or_assoc]

/-- A window of two by two pixels without memory, and a line that is a point. -/
theorem lcd_window_plain :
    FillsWindow (fun _ => false) 0 0 1 1 0xFFFF ⟨0, false, []⟩ ∧ DrawsRow 5 5 0 ⟨0, false, []⟩ := by
  have hside : (0 : U16) ≤ 1 := by decide
  obtain ⟨hfill, hrow⟩ := lcd_window_iff (fun _ => false) ⟨0, false, []⟩ 0xFFFF hside (by decide)
    hside (by decide) 5 5 0
  exact ⟨hfill.mpr (.inr (.inr rfl)), hrow.mpr rfl⟩

/-- A window of two by two pixels and a line of two, with memory to be had. -/
theorem lcd_window_short :
    ¬FillsWindow (fun _ => true) 0 0 1 1 0xFFFF ⟨0, false, []⟩ ∧ ¬DrawsRow 0 1 0 ⟨0, false, []⟩ := by
  rw [fillsWindow_iff _ _ _ (by decide) (by decide) (by decide) (by decide), drawsRow_iff]
  decide

end LowPower
