import LowPower.Spec.Shell

/-!
# The stored WLAN configuration

`wifi_config.c` keeps the configuration of the WLAN manager in two environment variables, its
length in decimal and its bytes in base64. The environment is EasyFlash, a package of its own: it is
a parameter (`EasyFlash`), and what is read of it are the texts the two names have, if any
(`WlanEnv`). A text is the characters before its NUL, and an `int` that counts characters is an
integer, a text in memory being shorter than `2^31`.
-/

namespace LowPower

abbrev ascii (ch : Char) : U8 := BitVec.ofNat 8 ch.toNat

def base64Table : List U8 :=
  "ABCDEFGHIJKLMNOPQRSTUVWXYZabcdefghijklmnopqrstuvwxyz0123456789+/".toList.map ascii

def base64DecodeTable : List ℕ :=
  [0x00, 0x00, 0x00, 0x00, 0x00, 0x00, 0x00, 0x00, 0x00, 0x00, 0x00, 0x00, 0x00, 0x00, 0x00, 0x00,
   0x00, 0x00, 0x00, 0x00, 0x00, 0x00, 0x00, 0x00, 0x00, 0x00, 0x00, 0x00, 0x00, 0x00, 0x00, 0x00,
   0x00, 0x00, 0x00, 0x00, 0x00, 0x00, 0x00, 0x00, 0x00, 0x00, 0x00, 0x3E, 0x00, 0x00, 0x00, 0x3F,
   0x34, 0x35, 0x36, 0x37, 0x38, 0x39, 0x3A, 0x3B, 0x3C, 0x3D, 0x00, 0x00, 0x00, 0x00, 0x00, 0x00,
   0x00, 0x00, 0x01, 0x02, 0x03, 0x04, 0x05, 0x06, 0x07, 0x08, 0x09, 0x0A, 0x0B, 0x0C, 0x0D, 0x0E,
   0x0F, 0x10, 0x11, 0x12, 0x13, 0x14, 0x15, 0x16, 0x17, 0x18, 0x19, 0x00, 0x00, 0x00, 0x00, 0x00,
   0x00, 0x1A, 0x1B, 0x1C, 0x1D, 0x1E, 0x1F, 0x20, 0x21, 0x22, 0x23, 0x24, 0x25, 0x26, 0x27, 0x28,
   0x29, 0x2A, 0x2B, 0x2C, 0x2D, 0x2E, 0x2F, 0x30, 0x31, 0x32, 0x33, 0x00, 0x00, 0x00, 0x00, 0x00,
   0x00, 0x00, 0x00, 0x00, 0x00, 0x00, 0x00, 0x00, 0x00, 0x00, 0x00, 0x00, 0x00, 0x00, 0x00, 0x00,
   0x00, 0x00, 0x00, 0x00, 0x00, 0x00, 0x00, 0x00, 0x00, 0x00, 0x00, 0x00, 0x00, 0x00, 0x00, 0x00,
   0x00, 0x00, 0x00, 0x00, 0x00, 0x00, 0x00, 0x00, 0x00, 0x00, 0x00, 0x00, 0x00, 0x00, 0x00, 0x00,
   0x00, 0x00, 0x00, 0x00, 0x00, 0x00, 0x00, 0x00, 0x00, 0x00, 0x00, 0x00, 0x00, 0x00, 0x00, 0x00,
   0x00, 0x00, 0x00, 0x00, 0x00, 0x00, 0x00, 0x00, 0x00, 0x00, 0x00, 0x00, 0x00, 0x00, 0x00, 0x00,
   0x00, 0x00, 0x00, 0x00, 0x00, 0x00, 0x00, 0x00, 0x00, 0x00, 0x00, 0x00, 0x00, 0x00, 0x00, 0x00,
   0x00, 0x00, 0x00, 0x00, 0x00, 0x00, 0x00, 0x00, 0x00, 0x00, 0x00, 0x00, 0x00, 0x00, 0x00, 0x00,
   0x00, 0x00, 0x00, 0x00, 0x00, 0x00, 0x00, 0x00, 0x00, 0x00, 0x00, 0x00, 0x00, 0x00, 0x00, 0x00]

/-! ## Encoding -/

/-- `base64_table[i]`; every index of the source is below 64. -/
def base64Char (i : ℕ) : U8 := base64Table.getD i 0

/-- The loop over whole groups, and the tail after it. -/
def encodeGroups : List U8 → List U8
  | in0 :: in1 :: in2 :: rest =>
    base64Char (in0.toNat >>> 2) ::
      base64Char ((in0.toNat &&& 0x03) <<< 4 ||| in1.toNat >>> 4) ::
      base64Char ((in1.toNat &&& 0x0f) <<< 2 ||| in2.toNat >>> 6) ::
      base64Char (in2.toNat &&& 0x3f) :: encodeGroups rest
  | [in0, in1] =>
    [base64Char (in0.toNat >>> 2), base64Char ((in0.toNat &&& 0x03) <<< 4 ||| in1.toNat >>> 4),
      base64Char ((in1.toNat &&& 0x0f) <<< 2), ascii '=']
  | [in0] =>
    [base64Char (in0.toNat >>> 2), base64Char ((in0.toNat &&& 0x03) <<< 4), ascii '=', ascii '=']
  | [] => []

/-- What the function writes to `out`, with the NUL it ends with. -/
def strBase64EncodeLen (src : List U8) : List U8 := encodeGroups src ++ [0]

/-! ## Decoding -/

/-- `data[i]`; outside of the text it is whatever lies there in memory. -/
def charAt (memory : ℤ → U8) (data : List U8) (i : ℤ) : U8 :=
  if 0 ≤ i ∧ i < data.length then data.getD i.toNat 0 else memory i

def sextet (ch : U8) : U32 :=
  if ch = ascii '=' then 0 else BitVec.ofNat 32 (base64DecodeTable.getD ch.toNat 0)

/-- `if (j < out_len) decoded_data[j++] = x & 0xFF`, with `j` bytes written so far. -/
def pushByte (outLen : ℤ) (x : U32) (decoded : List U8) : List U8 :=
  if decoded.length < outLen then decoded ++ [(x &&& 0xFF).setWidth 8] else decoded

/-- The loop over a text of whole groups. -/
def decodeLoop (outLen : ℤ) : List U8 → List U8 → List U8
  | a :: b :: c :: d :: rest, decoded =>
    let triple := (sextet a <<< 18) + (sextet b <<< 12) + (sextet c <<< 6) + (sextet d <<< 0)
    let decoded := pushByte outLen (triple >>> 16) decoded
    let decoded := pushByte outLen (triple >>> 8) decoded
    let decoded := pushByte outLen (triple >>> 0) decoded
    decodeLoop outLen rest decoded
  | _, decoded => decoded

/-- The `out_len` of a text of whole groups. -/
def decodedLen (memory : ℤ → U8) (data : List U8) : ℤ :=
  let outLen : ℤ := data.length / 4 * 3
  let outLen := if charAt memory data (data.length - 1) = ascii '=' then outLen - 1 else outLen
  if charAt memory data (data.length - 2) = ascii '=' then outLen - 1 else outLen

/-- The value returned and the bytes written to `decoded_data`. -/
def strBase64Decode (memory : ℤ → U8) (data : List U8) : ℤ × List U8 :=
  if data.length % 4 ≠ 0 then (0, [])
  else (decodedLen memory data, decodeLoop (decodedLen memory data) data [])

/-! ## The environment -/

/-- The texts stored under `wlan_cfg_len` and `wlan_cfg_info`. -/
structure WlanEnv where
  wlanCfgLen : Option (List U8)
  wlanCfgInfo : Option (List U8)
deriving DecidableEq, Repr

def isspace (ch : U8) : Bool := ch = ascii ' ' ∨ (9 ≤ ch.toNat ∧ ch.toNat ≤ 13)

def isdigit (ch : U8) : Bool := (ascii '0').toNat ≤ ch.toNat ∧ ch.toNat ≤ (ascii '9').toNat

/-- The number a run of digits stands for. -/
def decimal (text : List U8) : ℕ :=
  (text.takeWhile isdigit).foldl (fun n ch => 10 * n + (ch.toNat - (ascii '0').toNat)) 0

/-- `atoi`: blanks, a sign and digits, up to the first other character. A number outside of the
range of a `long` becomes its nearest limit. -/
def atoi (text : List U8) : ℤ :=
  match text.dropWhile isspace with
  | ch :: rest =>
    if ch = ascii '-' then max (-(2 ^ 31)) (-(decimal rest : ℤ))
    else if ch = ascii '+' then min (2 ^ 31 - 1) (decimal rest)
    else min (2 ^ 31 - 1) (decimal (ch :: rest))
  | [] => 0

def getLen (env : WlanEnv) : ℤ :=
  match env.wlanCfgLen with
  | none => 0
  | some text => atoi text

/-- The value returned and the bytes written to `buff`. -/
def readCfg (memory : ℤ → U8) (env : WlanEnv) (len : ℤ) : ℤ × List U8 :=
  match env.wlanCfgInfo with
  | some text => (len, (strBase64Decode memory text).2)
  | none => (0, [])

/-- `len * 4 / 3 + 4`, the size of the buffer the text is written to. -/
def base64BufSize (len : CInt) : CInt := (len * 4).sdiv 3 + 4

def rtEnomem : ℤ := 5

/-- `sprintf("%d", len)` for a length. -/
def sprintfInt (len : ℕ) : List U8 := (Nat.toDigits 10 len).map ascii

abbrev efNoErr : ℤ := 0

/-- The interface of EasyFlash over its state, with the error codes it returns; `reset` is what it
finds again after a reset. -/
structure EasyFlash (F : Type) where
  efGetEnv : String → F → Option (List U8)
  efSetEnv : String → List U8 → F → ℤ × F
  efSaveEnv : F → ℤ × F
  reset : F → F

/-- The two texts of the environment. -/
def EasyFlash.texts {F : Type} (ef : EasyFlash F) (env : F) : WlanEnv :=
  ⟨ef.efGetEnv "wlan_cfg_len" env, ef.efGetEnv "wlan_cfg_info" env⟩

/-- `heap` tells the sizes `rt_malloc` serves. No error code is looked at. -/
def writeCfg {F : Type} (ef : EasyFlash F) (heap : U32 → Bool) (buff : List U8) (env : F) : ℤ × F :=
  if heap (base64BufSize (BitVec.ofNat 32 buff.length)) then
    let (_, env) := ef.efSetEnv "wlan_cfg_len" (sprintfInt buff.length) env
    let (_, env) := ef.efSetEnv "wlan_cfg_info" ((strBase64EncodeLen buff).takeWhile (· ≠ 0)) env
    let (_, env) := ef.efSaveEnv env
    (buff.length, env)
  else (-rtEnomem, env)

end LowPower
