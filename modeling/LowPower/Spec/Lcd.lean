import LowPower.Lib.Loop
import LowPower.Spec.Lpms

/-!
# The LCD driver

The drawing functions of `drv_lcd.c`. A transfer on the SPI bus succeeds; the driver only logs one
that does not. What it sends is recorded with the level of the data/command pin, low for a command.
-/

namespace LowPower

/-- A byte on the bus, and the level of `LCD_DC_PIN` it was sent at. -/
structure Sent where
  dc : Bool
  byte : U8
deriving DecidableEq, Repr

structure Lcd where
  foreColor : U16
  dcPin : Bool
  bus : List Sent
deriving DecidableEq, Repr

def lcdW : ℕ := 240
def lcdH : ℕ := 240

def lcdClearSendNumber : U32 := 5760

/-- The two bytes of a half word, the high one first. -/
def halfWord (da : U16) : List U8 := [(da >>> 8).setWidth 8, da.setWidth 8]

namespace Lcd

def pinWrite (level : Bool) (lcd : Lcd) : Lcd := { lcd with dcPin := level }

def spiSend (buf : List U8) (lcd : Lcd) : Lcd :=
  { lcd with bus := lcd.bus ++ buf.map (⟨lcd.dcPin, ·⟩) }

def lcdWriteCmd (cmd : U8) (lcd : Lcd) : Lcd := (lcd.pinWrite false).spiSend [cmd]

def lcdWriteData (data : U8) (lcd : Lcd) : Lcd := (lcd.pinWrite true).spiSend [data]

def lcdWriteHalfWord (da : U16) (lcd : Lcd) : Lcd := (lcd.pinWrite true).spiSend (halfWord da)

def lcdAddressSet (x1 y1 x2 y2 : U16) (lcd : Lcd) : Lcd :=
  let lcd := lcd.lcdWriteCmd 0x2a
  let lcd := lcd.lcdWriteData ((x1 >>> 8).setWidth 8)
  let lcd := lcd.lcdWriteData (x1.setWidth 8)
  let lcd := lcd.lcdWriteData ((x2 >>> 8).setWidth 8)
  let lcd := lcd.lcdWriteData (x2.setWidth 8)
  let lcd := lcd.lcdWriteCmd 0x2b
  let lcd := lcd.lcdWriteData ((y1 >>> 8).setWidth 8)
  let lcd := lcd.lcdWriteData (y1.setWidth 8)
  let lcd := lcd.lcdWriteData ((y2 >>> 8).setWidth 8)
  let lcd := lcd.lcdWriteData (y2.setWidth 8)
  lcd.lcdWriteCmd 0x2C

def lcdDrawPoint (x y : U16) (lcd : Lcd) : Lcd :=
  let lcd := lcd.lcdAddressSet x y x y
  lcd.lcdWriteHalfWord lcd.foreColor

/-! ## Filling -/

/-- The buffer of `size` bytes, an even number, filled with a colour. -/
def fillBuf (size : U32) (color : U16) : List U8 :=
  (List.replicate (size.toNat / 2) (halfWord color)).flatten

/-- One round of the fast fill. -/
def fillChunk (color : U16) (size : U32) (lcd : Lcd) : Lcd :=
  (lcd.pinWrite true).spiSend (fillBuf size color)

/-- The fast fill: `size` bytes in this round, `size_remain` in the rounds after it. -/
def fillChunks (color : U16) (size sizeRemain : U32) (lcd : Lcd) : Lcd :=
  if sizeRemain = 0 then lcd.fillChunk color size
  else if sizeRemain > lcdClearSendNumber then
    fillChunks color size (sizeRemain - lcdClearSendNumber) (lcd.fillChunk color size)
  else fillChunks color sizeRemain 0 (lcd.fillChunk color size)
termination_by sizeRemain.toNat
decreasing_by
  all_goals simp only [lcdClearSendNumber] at *; bv_omega

/-- `for (j = x_start; j <= x_end; j++) lcd_write_half_word(color);` -/
def fillRow (color xStart xEnd : U16) (fuel : ℕ) (lcd : Lcd) : Option Lcd :=
  (loop (fun (j, _) => decide (j ≤ xEnd)) (fun _ (j, lcd) => some (j + 1, lcd.lcdWriteHalfWord color))
    fuel (xStart, lcd)).map Prod.snd

/-- The rows from `y_start` to `y_end`. -/
def fillRows (color xStart yStart xEnd yEnd : U16) (fuel : ℕ) (lcd : Lcd) : Option Lcd :=
  (loop (fun (i, _) => decide (i ≤ yEnd))
    (fun fuel (i, lcd) => (fillRow color xStart xEnd fuel lcd).map fun lcd => (i + 1, lcd))
    fuel (yStart, lcd)).map Prod.snd

/-- The bytes the window is taken to need. -/
def fillSize (xStart yStart xEnd yEnd : U16) : U32 :=
  (xEnd.setWidth 32 - xStart.setWidth 32) * (yEnd.setWidth 32 - yStart.setWidth 32) * 2

/-- `rt_malloc`, which gives nothing for no bytes; `heap` tells the other sizes it serves. -/
def rtMalloc (heap : U32 → Bool) (size : U32) : Bool := size ≠ 0 && heap size

def lcdFill (heap : U32 → Bool) (xStart yStart xEnd yEnd color : U16) (fuel : ℕ) (lcd : Lcd) :
    Option Lcd :=
  let size := fillSize xStart yStart xEnd yEnd
  let (size, sizeRemain) :=
    if size > lcdClearSendNumber then (lcdClearSendNumber, size - lcdClearSendNumber) else (size, 0)
  let lcd := lcd.lcdAddressSet xStart yStart xEnd yEnd
  if rtMalloc heap size then some (fillChunks color size sizeRemain lcd)
  else fillRows color xStart yStart xEnd yEnd fuel lcd

/-! ## Lines -/

/-- The variables of the loop of a slanted line. -/
structure Cursor where
  t : U16
  xerr : ℤ
  yerr : ℤ
  row : ℤ
  col : ℤ
  lcd : Lcd

/-- `incx` and the new `delta_x`, or those of the other axis. -/
def lineAxis (delta : ℤ) : ℤ × ℤ :=
  if delta > 0 then (1, delta) else if delta = 0 then (0, delta) else (-1, -delta)

/-- One axis in one round: the error grows, and beyond the distance gives a step. -/
def lineAdvance (delta distance inc err pos : ℤ) : ℤ × ℤ :=
  let err := err + delta
  if err > distance then (err - distance, pos + inc) else (err, pos)

def lineStep (deltaX deltaY distance incx incy : ℤ) (s : Cursor) : Cursor :=
  let lcd := s.lcd.lcdDrawPoint (BitVec.ofInt 16 s.row) (BitVec.ofInt 16 s.col)
  let (xerr, row) := lineAdvance deltaX distance incx s.xerr s.row
  let (yerr, col) := lineAdvance deltaY distance incy s.yerr s.col
  ⟨s.t + 1, xerr, yerr, row, col, lcd⟩

/-- `x_offset` pixels of `line_buf`. -/
def sendRow (xOffset : U16) (lcd : Lcd) : Lcd :=
  (lcd.pinWrite true).spiSend (List.replicate xOffset.toNat (halfWord lcd.foreColor)).flatten

/-- A line on one row. -/
def lineRow (x1 y1 x2 y2 : U16) (lcd : Lcd) : Lcd :=
  if x1 < x2 then (lcd.lcdAddressSet x1 y1 x2 y2).sendRow (x2 - x1)
  else if x1 > x2 then (lcd.lcdAddressSet x2 y2 x1 y1).sendRow (x1 - x2)
  else lcd.lcdDrawPoint x1 y1

def lcdDrawLine (x1 y1 x2 y2 : U16) (fuel : ℕ) (lcd : Lcd) : Option Lcd :=
  if y1 = y2 then some (lcd.lineRow x1 y1 x2 y2)
  else
    let (incx, deltaX) := lineAxis (x2.toNat - x1.toNat)
    let (incy, deltaY) := lineAxis (y2.toNat - y1.toNat)
    let distance := if deltaX > deltaY then deltaX else deltaY
    (loop (fun s => decide (s.t.toNat ≤ distance + 1))
      (fun _ s => some (lineStep deltaX deltaY distance incx incy s)) fuel
      ⟨0, 0, 0, x1.toNat, y1.toNat, lcd⟩).map Cursor.lcd

end Lcd

end LowPower
