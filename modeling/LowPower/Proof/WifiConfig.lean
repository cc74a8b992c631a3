import LowPower.Lib.Base64
import LowPower.Spec.WifiConfig
import Mathlib.Data.List.TakeWhile
import Mathlib.Data.Nat.Bitwise

/-!
# The WLAN configuration: what is written is read back

The encoder and the decoder are the two halves of `Alphabet` for the alphabet of the tables
(`encodeGroups_eq`, `decodeLoop_eq`), so what `write_cfg` stores is decoded to the same bytes
(`strBase64_roundTrip`). `read_cfg` drops the length the decoder returns: it is safe exactly for a
text whose length and padding stand for the bytes asked for (`readCfg_safe_iff`), as the text
`write_cfg` stores does when EasyFlash keeps its promises (`readCfg_writeCfg`).
-/

namespace LowPower

variable {memory : ℤ → U8}

/-! ## The alphabet of the tables -/

theorem sextet_lt (ch : U8) : (sextet ch).toNat < 64 := by
  have htable : ∀ x ∈ base64DecodeTable, x < 64 := by decide +kernel
  have hget : base64DecodeTable.getD ch.toNat 0 < 64 := by
    rw [List.getD_eq_getElem?_getD]
    cases hentry : base64DecodeTable[ch.toNat]? with
    | none => exact Nat.zero_lt_succ 63
    | some x => exact htable x (List.mem_of_getElem? hentry)
  unfold sextet
  split
  · decide
  · rw [BitVec.toNat_ofNat]
    omega

/-- The two tables are inverse on the 64 digits, and `=` is none of them. -/
theorem sextet_base64Char : ∀ d < 64, (sextet (base64Char d)).toNat = d ∧
    base64Char d ≠ ascii '=' ∧ base64Char d ≠ 0 := by
  decide +kernel

/-- The alphabet of `base64_table` and `base64_decode_table`. -/
def base64 : Alphabet U8 where
  char := base64Char
  pad := ascii '='
  value ch := (sextet ch).toNat
  value_char d hd := (sextet_base64Char d hd).1
  value_pad := rfl
  char_ne_pad d hd := (sextet_base64Char d hd).2.1

/-! ## The encoder -/

section Bits

variable (x y : U8)

/-- Bits below a shifted number are added to it. -/
theorem shift_or {k b : ℕ} (h : b < 2 ^ k) (a : ℕ) : a <<< k ||| b = a * 2 ^ k + b := by
  rw [← Nat.shiftLeft_add_eq_or_of_lt h, Nat.shiftLeft_eq]

theorem shift_two : x.toNat >>> 2 = x.toNat / 4 := Nat.shiftRight_eq_div_pow _ 2

theorem mask_two : x.toNat &&& 0x03 = x.toNat % 4 := Nat.and_two_pow_sub_one_eq_mod _ 2

theorem mask_four : x.toNat &&& 0x0f = x.toNat % 16 := Nat.and_two_pow_sub_one_eq_mod _ 4

theorem mask_six : x.toNat &&& 0x3f = x.toNat % 64 := Nat.and_two_pow_sub_one_eq_mod _ 6

theorem bits_first :
    (x.toNat &&& 0x03) <<< 4 ||| y.toNat >>> 4 = x.toNat % 4 * 16 + y.toNat / 16 := by
  have hlow : y.toNat / 2 ^ 4 < 2 ^ 4 := by omega
  rw [mask_two, Nat.shiftRight_eq_div_pow, shift_or hlow]
  rfl

theorem bits_second :
    (x.toNat &&& 0x0f) <<< 2 ||| y.toNat >>> 6 = x.toNat % 16 * 4 + y.toNat / 64 := by
  have hlow : y.toNat / 2 ^ 6 < 2 ^ 2 := by omega
  rw [mask_four, Nat.shiftRight_eq_div_pow, shift_or hlow]
  rfl

end Bits

theorem bytes_lt (src : List U8) : ∀ b ∈ src.map BitVec.toNat, b < 256 := by
  intro b hmem
  obtain ⟨x, -, rfl⟩ := List.mem_map.mp hmem
  exact x.isLt

/-- The encoder writes the text of its bytes. -/
theorem encodeGroups_eq (src : List U8) :
    encodeGroups src = base64.encode (src.map BitVec.toNat) := by
  induction src using encodeGroups.induct with
  | case1 in0 in1 in2 rest ih =>
    rw [encodeGroups, ih, shift_two, bits_first, bits_second, mask_six]
    rfl
  | case2 in0 in1 =>
    rw [encodeGroups, shift_two, bits_first, mask_four, Nat.shiftLeft_eq]
    rfl
  | case3 in0 =>
    rw [encodeGroups, shift_two, mask_two, Nat.shiftLeft_eq]
    rfl
  | case4 => rfl

/-- No character of a text is the NUL. -/
theorem encodeGroups_ne_zero (src : List U8) : ∀ ch ∈ encodeGroups src, ch ≠ 0 := by
  intro ch hmem
  rw [encodeGroups_eq] at hmem
  obtain ⟨d, hd, rfl⟩ | rfl := base64.mem_encode (bytes_lt src) hmem
  · exact (sextet_base64Char d hd).2.2
  · decide

/-! ## The decoder -/

/-- The word of a group is its number; nothing overflows. -/
theorem triple_toNat (a b c d : U8) :
    ((sextet a <<< 18) + (sextet b <<< 12) + (sextet c <<< 6) + (sextet d <<< 0)).toNat =
      base64.triple a b c d := by
  have ha := sextet_lt a
  have hb := sextet_lt b
  have hc := sextet_lt c
  have hd := sextet_lt d
  simp only [BitVec.toNat_add, BitVec.toNat_shiftLeft, Nat.shiftLeft_eq, Alphabet.triple]
  show _ = (sextet a).toNat * 262144 + (sextet b).toNat * 4096 + (sextet c).toNat * 64 +
    (sextet d).toNat
  omega

theorem byte_of_shift (x : U32) (k : ℕ) :
    ((x >>> k) &&& 0xFF).setWidth 8 = BitVec.ofNat 8 (x.toNat / 2 ^ k % 256) := by
  apply BitVec.eq_of_toNat_eq
  have hmask : x.toNat >>> k &&& (0xFF : U32).toNat = x.toNat / 2 ^ k % 256 := by
    rw [Nat.shiftRight_eq_div_pow]
    exact Nat.and_two_pow_sub_one_eq_mod _ 8
  rw [BitVec.toNat_setWidth, BitVec.toNat_and, BitVec.toNat_ushiftRight, BitVec.toNat_ofNat, hmask]

/-- A byte is written while there is room. -/
theorem pushByte_eq {n : ℕ} {x : U32} {decoded l : List U8} (h : decoded = l.take n) (k : ℕ) :
    pushByte n (x >>> k) decoded =
      (l ++ [BitVec.ofNat 8 (x.toNat / 2 ^ k % 256)]).take n := by
  unfold pushByte
  rw [byte_of_shift, h]
  split
  · rename_i hroom
    rw [List.length_take] at hroom
    rw [List.take_of_length_le (by omega), List.take_of_length_le (by simp; omega)]
  · rename_i hfull
    rw [List.length_take] at hfull
    rw [List.take_append_of_le_length (by omega)]

/-- **The decoder writes the first `out_len` of the bytes its text stands for.** -/
theorem decodeLoop_eq (n : ℕ) (text l : List U8) :
    decodeLoop n text (l.take n) =
      (l ++ (base64.decode text).map (BitVec.ofNat 8)).take n := by
  induction text using Alphabet.decode.induct generalizing l with
  | case1 a b c d rest ih =>
    rw [decodeLoop, pushByte_eq rfl, pushByte_eq rfl, pushByte_eq rfl, ih, triple_toNat]
    simp [Alphabet.decode, Alphabet.bytes]
  | case2 text hshort =>
    obtain rfl | ⟨x, rfl⟩ | ⟨x, y, rfl⟩ | ⟨x, y, z, rfl⟩ := Alphabet.short_cases hshort <;>
      simp [decodeLoop, Alphabet.decode]

/-- The bytes of a decoded text. -/
theorem decodeLoop_nil (n : ℕ) (text : List U8) :
    decodeLoop n text [] = ((base64.decode text).map (BitVec.ofNat 8)).take n := by
  simpa using decodeLoop_eq n text []

/-- Reading inside of a text. -/
theorem charAt_append (init rest : List U8) {k : ℕ} (hk : k < rest.length) {i : ℤ}
    (hi : i = init.length + k) : charAt memory (init ++ rest) i = rest.getD k 0 := by
  have hin : 0 ≤ i ∧ i < (init ++ rest).length := by
    rw [List.length_append]
    omega
  rw [charAt, if_pos hin, show i.toNat = init.length + k by omega, List.getD_eq_getElem?_getD,
    List.getElem?_append_right (Nat.le_add_right _ _), Nat.add_sub_cancel_left,
    List.getD_eq_getElem?_getD]

/-- `out_len` is what the text stands for, less the padding among its last two characters. -/
theorem decodedLen_eq {text : List U8} (hdvd : text.length % 4 = 0) (hne : text ≠ []) :
    decodedLen memory text = 3 * (text.length / 4 : ℕ) - base64.padding text := by
  have hpos : 0 < text.length := List.length_pos_iff.mpr hne
  obtain ⟨y, z, hyz⟩ : ∃ y z, text.drop (text.length - 2) = [y, z] := by
    rw [← List.length_eq_two, List.length_drop]
    omega
  have htext := List.take_append_drop (text.length - 2) text
  rw [hyz] at htext
  generalize text.take (text.length - 2) = init at htext
  subst htext
  have hlast : charAt memory (init ++ [y, z]) ((init ++ [y, z]).length - 1) = z :=
    charAt_append init [y, z] (k := 1) (by simp) (by simp; omega)
  have hprev : charAt memory (init ++ [y, z]) ((init ++ [y, z]).length - 2) = y :=
    charAt_append init [y, z] (k := 0) (by simp) (by simp)
  unfold decodedLen Alphabet.padding
  rw [hlast, hprev, hyz]
  change _ = _ - ((List.count (ascii '=') [y, z] : ℕ) : ℤ)
  by_cases hy : y = ascii '=' <;> by_cases hz : z = ascii '=' <;> simp [hy, hz] <;> omega

theorem padding_le (text : List U8) : base64.padding text ≤ 2 := by
  refine List.count_le_length.trans ?_
  rw [List.length_drop]
  omega

/-- **The decoder writes as many bytes as it returns.** -/
theorem strBase64Decode_eq {text : List U8} (hdvd : text.length % 4 = 0) (hne : text ≠ []) {n : ℕ}
    (hn : n + base64.padding text = 3 * (text.length / 4)) :
    strBase64Decode memory text =
      ((n : ℤ), ((base64.decode text).map (BitVec.ofNat 8)).take n) := by
  have hlen : decodedLen memory text = n := by
    rw [decodedLen_eq hdvd hne]
    omega
  rw [strBase64Decode, if_neg (not_not.mpr hdvd), hlen, decodeLoop_nil]

theorem strBase64Decode_length {text : List U8} (hdvd : text.length % 4 = 0) (hne : text ≠ [])
    {n : ℕ} (hn : n + base64.padding text = 3 * (text.length / 4)) :
    (strBase64Decode memory text).2.length = n := by
  rw [strBase64Decode_eq hdvd hne hn, List.length_take, List.length_map, base64.length_decode]
  omega

/-- A broken text gives no byte. -/
theorem strBase64Decode_bad {text : List U8} (h : ¬(text.length % 4 = 0 ∧ text ≠ [])) :
    (strBase64Decode memory text).2 = [] := by
  unfold strBase64Decode
  split
  · rfl
  · rename_i hdvd
    have hnil : text = [] := not_not.mp fun hne => h ⟨not_not.mp hdvd, hne⟩
    rw [hnil, decodeLoop]
    exact fun _ _ _ _ _ => nofun

/-- The size computed for the buffer does not overflow. -/
theorem base64BufSize_toNat {n : ℕ} (h : 4 * n < 2 ^ 31) :
    (base64BufSize (BitVec.ofNat 32 n)).toNat = 4 * n / 3 + 4 := by
  have hfour : (4 : CInt).toNat = 4 := rfl
  have hmul : (BitVec.ofNat 32 n * 4).toNat = 4 * n := by
    rw [BitVec.toNat_mul, BitVec.toNat_ofNat, hfour]
    omega
  have hmsb : (BitVec.ofNat 32 n * 4).msb = false := by
    rw [BitVec.msb_eq_false_iff_two_mul_lt, hmul]
    omega
  have hdiv : ((BitVec.ofNat 32 n * 4).sdiv 3).toNat = 4 * n / 3 := by
    rw [BitVec.sdiv_eq, hmsb]
    change ((BitVec.ofNat 32 n * 4).udiv 3).toNat = _
    rw [BitVec.udiv_eq, BitVec.toNat_udiv, hmul]
    rfl
  rw [base64BufSize, BitVec.toNat_add, hdiv, hfour]
  omega

theorem encodeGroups_length (src : List U8) :
    (encodeGroups src).length = 4 * ((src.length + 2) / 3) := by
  rw [encodeGroups_eq, base64.length_encode, List.length_map]

/-- Decoding the text of some bytes gives them back. -/
theorem strBase64Decode_encodeGroups (memory : ℤ → U8) {src : List U8} (h : 1 ≤ src.length) :
    strBase64Decode memory (encodeGroups src) = ((src.length : ℤ), src) := by
  have hlen := encodeGroups_length src
  have hdvd : (encodeGroups src).length % 4 = 0 := by omega
  have hne : encodeGroups src ≠ [] := List.length_pos_iff.mp (by omega)
  have hpad : base64.padding (encodeGroups src) = Alphabet.pads src.length := by
    rw [encodeGroups_eq, base64.padding_encode (bytes_lt src), List.length_map]
  have hcount : src.length + base64.padding (encodeGroups src) =
      3 * ((encodeGroups src).length / 4) := by
    rw [hpad, hlen, Alphabet.pads]
    omega
  have hbytes : ((base64.decode (encodeGroups src)).map (BitVec.ofNat 8)).take src.length =
      src := by
    have hmap : (src.map BitVec.toNat).map (BitVec.ofNat 8) = src := by simp [Function.comp_def]
    rw [encodeGroups_eq, base64.decode_encode (bytes_lt src), List.map_append, hmap]
    exact List.take_left' rfl
  rw [strBase64Decode_eq hdvd hne hcount, hbytes]

/-- **What is encoded is decoded.** The text fits into the buffer `write_cfg` allocates, four
characters stand for every three bytes begun, and decoding gives the bytes back. -/
theorem strBase64_roundTrip (memory : ℤ → U8) {b : List U8} (h1 : 1 ≤ b.length)
    (h : 4 * b.length < 2 ^ 31) :
    ∃ text, strBase64EncodeLen b = text ++ [0] ∧ (∀ ch ∈ text, ch ≠ 0) ∧
      (strBase64EncodeLen b).length ≤ 4 * b.length / 3 + 4 ∧
      (base64BufSize (BitVec.ofNat 32 b.length)).toNat = 4 * b.length / 3 + 4 ∧
      text.length = 4 * ((b.length + 2) / 3) ∧
      strBase64Decode memory text = ((b.length : ℤ), b) := by
  have hlen := encodeGroups_length b
  refine ⟨encodeGroups b, rfl, encodeGroups_ne_zero b, ?_, base64BufSize_toNat h, hlen,
    strBase64Decode_encodeGroups memory h1⟩
  rw [strBase64EncodeLen, List.length_append, List.length_singleton]
  omega

/-- Seven bytes. -/
theorem strBase64_roundTrip_seven :
    ∃ text, strBase64EncodeLen [1, 2, 3, 4, 5, 6, 255] = text ++ [0] ∧ text.length = 12 ∧
      strBase64Decode (fun _ => 0) text = (7, [1, 2, 3, 4, 5, 6, 255]) := by
  obtain ⟨text, htext, -, -, -, hlen, hdecode⟩ :=
    strBase64_roundTrip (fun _ => 0) (b := [1, 2, 3, 4, 5, 6, 255]) (by decide) (by decide)
  exact ⟨text, htext, hlen, hdecode⟩

/-! ## Reading -/

/-- What the caller of `read_cfg` relies on: no byte beyond the buffer is written, and `len` is
returned only for a text that decodes to `len` bytes. -/
def ReadsSafely (memory : ℤ → U8) (env : WlanEnv) (len : ℤ) : Prop :=
  (readCfg memory env len).2.length ≤ len ∧
    ((readCfg memory env len).1 = len →
      ∃ text, env.wlanCfgInfo = some text ∧ (strBase64Decode memory text).1 = len ∧
        (strBase64Decode memory text).2.length = len)

/-- **`read_cfg` is safe exactly for a text of the length asked for**, or without one: the decoded
length is dropped, and `len` is returned for every text. -/
theorem readCfg_safe_iff (memory : ℤ → U8) (env : WlanEnv) (h : 0 < getLen env) :
    ReadsSafely memory env (getLen env) ↔
      ∀ text, env.wlanCfgInfo = some text → text.length % 4 = 0 ∧
        3 * (text.length / 4 : ℕ) = getLen env + base64.padding text := by
  unfold ReadsSafely readCfg
  cases env.wlanCfgInfo with
  | none =>
    refine iff_of_true ⟨Int.le_of_lt h, fun heq => ?_⟩ (fun text htext => nomatch htext)
    exact absurd heq (Int.ne_of_lt h)
  | some text =>
    simp only [Option.some.injEq, forall_eq', true_implies, exists_eq_left']
    by_cases hgood : text.length % 4 = 0 ∧ text ≠ []
    · obtain ⟨hdvd, hne⟩ := hgood
      have hpos : 0 < text.length := List.length_pos_iff.mpr hne
      have hpad := padding_le text
      obtain ⟨n, hn⟩ : ∃ n, n + base64.padding text = 3 * (text.length / 4) :=
        ⟨3 * (text.length / 4) - base64.padding text, by omega⟩
      rw [strBase64Decode_length hdvd hne hn, strBase64Decode_eq hdvd hne hn]
      constructor
      · rintro ⟨-, hret, -⟩
        exact ⟨hdvd, by omega⟩
      · rintro ⟨-, hlen⟩
        exact ⟨by omega, by omega, by omega⟩
    · -- nothing is decoded, and `len` is returned all the same
      rw [strBase64Decode_bad hgood]
      refine iff_of_false (fun ⟨_, hret⟩ => ?_) (fun ⟨hdvd, hlen⟩ => ?_)
      · exact absurd hret.2 (Int.ne_of_lt h)
      · have hnil : text = [] := not_not.mp fun hne => hgood ⟨hdvd, hne⟩
        rw [hnil] at hlen
        simp only [List.length_nil] at hlen
        omega

/-- Seven bytes and their text of twelve characters. -/
theorem readCfg_safe_seven :
    ReadsSafely (fun _ => 0) ⟨some [ascii '7'], some ("AQIDBAUG/w==".toList.map ascii)⟩ 7 := by
  refine (readCfg_safe_iff (fun _ => 0) _ (by decide)).mpr fun text htext => ?_
  obtain rfl := Option.some.inj htext
  decide

/-- A text of four characters read into a buffer of one byte: three bytes are written, and one is
returned. -/
theorem readCfg_overrun :
    getLen ⟨some [ascii '1'], some ("AAAA".toList.map ascii)⟩ = 1 ∧
      readCfg (fun _ => 0) ⟨some [ascii '1'], some ("AAAA".toList.map ascii)⟩ 1 = (1, [0, 0, 0]) ∧
      ¬ReadsSafely (fun _ => 0) ⟨some [ascii '1'], some ("AAAA".toList.map ascii)⟩ 1 := by
  refine ⟨by decide, by decide, ?_⟩
  rintro ⟨hle, -⟩
  exact absurd hle (by decide)

/-! ## Writing and reading -/

theorem ascii_digit {ch : Char} (h : ch.isDigit) :
    (ascii ch).toNat = ch.toNat ∧ isdigit (ascii ch) := by
  obtain ⟨hlow, hhigh⟩ := Char.isDigit_iff_toNat.mp h
  change 48 ≤ ch.toNat at hlow
  change ch.toNat ≤ 57 at hhigh
  have hval : (ascii ch).toNat = ch.toNat := by
    rw [BitVec.toNat_ofNat]
    omega
  refine ⟨hval, decide_eq_true ?_⟩
  rw [hval]
  exact ⟨hlow, hhigh⟩

theorem sprintfInt_digit {n : ℕ} {ch : U8} (h : ch ∈ sprintfInt n) : isdigit ch := by
  obtain ⟨d, hd, rfl⟩ := List.mem_map.mp h
  exact (ascii_digit (Nat.isDigit_of_mem_toDigits (by omega) (by omega) hd)).2

/-- The decimal text of a length stands for it. -/
theorem decimal_sprintfInt (n : ℕ) : decimal (sprintfInt n) = n := by
  have hall : (sprintfInt n).takeWhile isdigit = sprintfInt n := by
    rw [List.takeWhile_eq_self_iff]
    exact fun ch hmem => sprintfInt_digit hmem
  have hfold : ∀ (l : List Char) (k : ℕ), (∀ ch ∈ l, ch.isDigit) →
      l.foldl (fun m ch => 10 * m + ((ascii ch).toNat - (ascii '0').toNat)) k =
        Nat.ofDigitChars 10 l k := by
    intro l
    induction l with
    | nil => exact fun _ _ => rfl
    | cons ch l ih =>
      intro k hl
      rw [List.forall_mem_cons] at hl
      rw [List.foldl_cons, ih _ hl.2, (ascii_digit hl.1).1, Nat.ofDigitChars_cons]
      rfl
  rw [decimal, hall, sprintfInt, List.foldl_map,
    hfold _ _ fun ch hmem => Nat.isDigit_of_mem_toDigits (by omega) (by omega) hmem]
  exact Nat.ofDigitChars_toDigits (by omega) (by omega)

/-- A length printed and read by `atoi` is the same. -/
theorem atoi_sprintfInt {n : ℕ} (h : n < 2 ^ 31) : atoi (sprintfInt n) = n := by
  obtain ⟨ch, rest, htext⟩ : ∃ ch rest, sprintfInt n = ch :: rest := by
    apply List.exists_cons_of_ne_nil
    rw [sprintfInt, ne_eq, List.map_eq_nil_iff]
    exact Nat.toDigits_ne_nil
  have hdigit : isdigit ch := sprintfInt_digit (htext ▸ List.mem_cons_self)
  have hrange := of_decide_eq_true hdigit
  change 48 ≤ ch.toNat ∧ ch.toNat ≤ 57 at hrange
  have hspace : isspace ch = false := by
    refine decide_eq_false ?_
    rintro (rfl | hblank)
    · exact absurd hrange (by decide)
    · omega
  have hvalue : decimal (ch :: rest) = n := htext ▸ decimal_sprintfInt n
  have hminus : ch ≠ ascii '-' := fun heq => absurd (heq ▸ hdigit) (by decide)
  have hplus : ch ≠ ascii '+' := fun heq => absurd (heq ▸ hdigit) (by decide)
  rw [atoi, htext, List.dropWhile_cons_of_neg (by simp [hspace])]
  simp only [hminus, hplus, hvalue, if_false]
  omega

/-! ## EasyFlash -/

/-- What EasyFlash promises: a variable set without error is found and the others are as they were,
and what is saved without error is found again after a reset. -/
structure EasyFlash.Documented {F : Type} (ef : EasyFlash F) : Prop where
  set_get : ∀ name text env, (ef.efSetEnv name text env).1 = efNoErr →
    ef.efGetEnv name (ef.efSetEnv name text env).2 = some text
  set_other : ∀ name text env, (ef.efSetEnv name text env).1 = efNoErr → ∀ name' ≠ name,
    ef.efGetEnv name' (ef.efSetEnv name text env).2 = ef.efGetEnv name' env
  save_reset : ∀ env, (ef.efSaveEnv env).1 = efNoErr → ∀ name,
    ef.efGetEnv name (ef.reset (ef.efSaveEnv env).2) = ef.efGetEnv name env

/-- EasyFlash reports no error when `write_cfg` stores some bytes. -/
def EasyFlash.Stores {F : Type} (ef : EasyFlash F) (buff : List U8) (env : F) : Prop :=
  let lenSet := ef.efSetEnv "wlan_cfg_len" (sprintfInt buff.length) env
  let infoSet := ef.efSetEnv "wlan_cfg_info" ((strBase64EncodeLen buff).takeWhile (· ≠ 0)) lenSet.2
  lenSet.1 = efNoErr ∧ infoSet.1 = efNoErr ∧ (ef.efSaveEnv infoSet.2).1 = efNoErr

section Store

variable {F : Type} {ef : EasyFlash F} {heap : U32 → Bool} {b : List U8} {env : F}

/-- The texts found after a reset. -/
theorem writeCfg_texts (hef : ef.Documented) (hstores : ef.Stores b env)
    (hheap : heap (base64BufSize (BitVec.ofNat 32 b.length))) :
    ef.texts (ef.reset (writeCfg ef heap b env).2) =
      ⟨some (sprintfInt b.length), some (encodeGroups b)⟩ := by
  have htext : (strBase64EncodeLen b).takeWhile (· ≠ 0) = encodeGroups b := by
    rw [strBase64EncodeLen, List.takeWhile_append_of_pos]
    · simp
    · exact fun ch hmem => decide_eq_true (encodeGroups_ne_zero b ch hmem)
  obtain ⟨hlen, hinfo, hsave⟩ := hstores
  rw [writeCfg, if_pos hheap, EasyFlash.texts]
  dsimp only
  rw [hef.save_reset _ hsave, hef.save_reset _ hsave, hef.set_get _ _ _ hinfo,
    hef.set_other _ _ _ hinfo _ (by decide), hef.set_get _ _ _ hlen, htext]

/-- **What `write_cfg` stores is what `read_cfg` reads** after a reset. -/
theorem readCfg_writeCfg (memory : ℤ → U8) (hef : ef.Documented) (hstores : ef.Stores b env)
    (hheap : heap (base64BufSize (BitVec.ofNat 32 b.length))) (h1 : 1 ≤ b.length)
    (h : 4 * b.length < 2 ^ 31) :
    getLen (ef.texts (ef.reset (writeCfg ef heap b env).2)) = b.length ∧
      readCfg memory (ef.texts (ef.reset (writeCfg ef heap b env).2)) b.length =
        ((b.length : ℤ), b) := by
  rw [writeCfg_texts hef hstores hheap]
  refine ⟨atoi_sprintfInt (by omega), ?_⟩
  simp only [readCfg, strBase64Decode_encodeGroups memory h1]

end Store

/-- EasyFlash with its variables in memory, saved as a whole. -/
structure EfCache where
  cached : String → Option (List U8)
  flash : String → Option (List U8)

def easyFlash : EasyFlash EfCache where
  efGetEnv name env := env.cached name
  efSetEnv name text env := (efNoErr, { env with cached := Function.update env.cached name (some text) })
  efSaveEnv env := (efNoErr, { env with flash := env.cached })
  reset env := { env with cached := env.flash }

end LowPower
