import Mathlib.Data.List.Basic

/-!
# Base64

Three bytes are four digits of six bits; a last group of one or two bytes is filled with zero bits
and marked by padding characters. The alphabet is a parameter: a character for each digit, and a
value for each character, 0 for the padding. Decoding gives the bytes back with a zero for each
padding character (`decode_encode`), and the padding counts those zeros (`padding_encode`).
-/

namespace LowPower

/-- Characters for the digits below 64, and one for padding. -/
structure Alphabet (σ : Type) where
  char : ℕ → σ
  pad : σ
  value : σ → ℕ
  value_char : ∀ d < 64, value (char d) = d
  value_pad : value pad = 0
  char_ne_pad : ∀ d < 64, char d ≠ pad

namespace Alphabet

variable {σ : Type} (A : Alphabet σ)

def encode : List ℕ → List σ
  | a :: b :: c :: rest =>
    A.char (a / 4) :: A.char (a % 4 * 16 + b / 16) :: A.char (b % 16 * 4 + c / 64) ::
      A.char (c % 64) :: encode rest
  | [a, b] => [A.char (a / 4), A.char (a % 4 * 16 + b / 16), A.char (b % 16 * 4), A.pad]
  | [a] => [A.char (a / 4), A.char (a % 4 * 16), A.pad, A.pad]
  | [] => []

/-- The bytes of a 24-bit number, highest first. -/
def bytes (n : ℕ) : List ℕ := [n / 65536 % 256, n / 256 % 256, n % 256]

/-- The number four characters stand for. -/
def triple (w x y z : σ) : ℕ :=
  A.value w * 262144 + A.value x * 4096 + A.value y * 64 + A.value z

/-- The bytes of every whole group of four characters, whatever the characters are. -/
def decode : List σ → List ℕ
  | w :: x :: y :: z :: rest => bytes (A.triple w x y z) ++ decode rest
  | _ => []

/-- The padding characters a text of `n` bytes ends with. -/
def pads (n : ℕ) : ℕ := (3 - n % 3) % 3

/-- The padding characters among the last two of a text. -/
def padding [DecidableEq σ] (text : List σ) : ℕ := (text.drop (text.length - 2)).count A.pad

theorem length_encode (bs : List ℕ) : (A.encode bs).length = 4 * ((bs.length + 2) / 3) := by
  induction bs using encode.induct with
  | case1 a b c rest ih =>
    simp only [encode, List.length_cons, ih]
    omega
  | case2 => simp [encode]
  | case3 => simp [encode]
  | case4 => simp [encode]

/-- A text without a group of four digits. -/
theorem short_cases {text : List σ} (h : ∀ w x y z rest, text ≠ w :: x :: y :: z :: rest) :
    text = [] ∨ (∃ x, text = [x]) ∨ (∃ x y, text = [x, y]) ∨ ∃ x y z, text = [x, y, z] := by
  match text, h with
  | [], _ => exact .inl rfl
  | [x], _ => exact .inr (.inl ⟨x, rfl⟩)
  | [x, y], _ => exact .inr (.inr (.inl ⟨x, y, rfl⟩))
  | [x, y, z], _ => exact .inr (.inr (.inr ⟨x, y, z, rfl⟩))
  | _ :: _ :: _ :: _ :: _, h => exact absurd rfl (h _ _ _ _ _)

theorem length_decode (text : List σ) : (A.decode text).length = 3 * (text.length / 4) := by
  induction text using decode.induct with
  | case1 w x y z rest ih =>
    simp only [decode, bytes, List.length_append, List.length_cons, List.length_nil, ih]
    omega
  | case2 text hshort =>
    obtain rfl | ⟨x, rfl⟩ | ⟨x, y, rfl⟩ | ⟨x, y, z, rfl⟩ := short_cases hshort <;> simp [decode]

/-- The characters of a text are digits and padding. -/
theorem mem_encode {bs : List ℕ} (h : ∀ b ∈ bs, b < 256) {ch : σ} (hmem : ch ∈ A.encode bs) :
    (∃ d < 64, ch = A.char d) ∨ ch = A.pad := by
  induction bs using encode.induct with
  | case1 a b c rest ih =>
    rw [List.forall_mem_cons, List.forall_mem_cons, List.forall_mem_cons] at h
    obtain ⟨ha, hb, hc, hrest⟩ := h
    simp only [encode, List.mem_cons] at hmem
    obtain rfl | rfl | rfl | rfl | hmem := hmem
    · exact .inl ⟨_, by omega, rfl⟩
    · exact .inl ⟨_, by omega, rfl⟩
    · exact .inl ⟨_, by omega, rfl⟩
    · exact .inl ⟨_, by omega, rfl⟩
    · exact ih hrest hmem
  | case2 a b =>
    have ha : a < 256 := h a (by simp)
    have hb : b < 256 := h b (by simp)
    simp only [encode, List.mem_cons, List.not_mem_nil, or_false] at hmem
    obtain rfl | rfl | rfl | rfl := hmem
    · exact .inl ⟨_, by omega, rfl⟩
    · exact .inl ⟨_, by omega, rfl⟩
    · exact .inl ⟨_, by omega, rfl⟩
    · exact .inr rfl
  | case3 a =>
    have ha : a < 256 := h a (by simp)
    simp only [encode, List.mem_cons, List.not_mem_nil, or_false] at hmem
    obtain rfl | rfl | rfl | rfl := hmem
    · exact .inl ⟨_, by omega, rfl⟩
    · exact .inl ⟨_, by omega, rfl⟩
    · exact .inr rfl
    · exact .inr rfl
  | case4 => simp [encode] at hmem

/-- Four digits hold the three bytes they were cut from. -/
theorem bytes_digits {a b c : ℕ} (ha : a < 256) (hb : b < 256) (hc : c < 256) :
    bytes (a / 4 * 262144 + (a % 4 * 16 + b / 16) * 4096 + (b % 16 * 4 + c / 64) * 64 + c % 64) =
      [a, b, c] := by
  have hsum : a / 4 * 262144 + (a % 4 * 16 + b / 16) * 4096 + (b % 16 * 4 + c / 64) * 64 + c % 64 =
      a * 65536 + b * 256 + c := by omega
  unfold bytes
  rw [hsum]
  have hhigh : (a * 65536 + b * 256 + c) / 65536 % 256 = a := by omega
  have hmid : (a * 65536 + b * 256 + c) / 256 % 256 = b := by omega
  have hlow : (a * 65536 + b * 256 + c) % 256 = c := by omega
  rw [hhigh, hmid, hlow]

/-- **Decoding a text gives its bytes back**, and a zero for each padding character. -/
theorem decode_encode {bs : List ℕ} (h : ∀ b ∈ bs, b < 256) :
    A.decode (A.encode bs) = bs ++ List.replicate (pads bs.length) 0 := by
  induction bs using encode.induct with
  | case1 a b c rest ih =>
    rw [List.forall_mem_cons, List.forall_mem_cons, List.forall_mem_cons] at h
    obtain ⟨ha, hb, hc, hrest⟩ := h
    have hlen : pads (a :: b :: c :: rest).length = pads rest.length := by
      simp only [pads, List.length_cons]
      omega
    rw [encode, decode, triple, A.value_char _ (by omega), A.value_char _ (by omega),
      A.value_char _ (by omega), A.value_char _ (by omega), bytes_digits ha hb hc, ih hrest, hlen]
    rfl
  | case2 a b =>
    have ha : a < 256 := h a (by simp)
    have hb : b < 256 := h b (by simp)
    rw [encode, decode, triple, A.value_char _ (by omega), A.value_char _ (by omega),
      A.value_char _ (by omega), A.value_pad]
    simpa [decode, pads] using bytes_digits ha hb (c := 0) (by omega)
  | case3 a =>
    have ha : a < 256 := h a (by simp)
    rw [encode, decode, triple, A.value_char _ (by omega), A.value_char _ (by omega), A.value_pad]
    simpa [decode, pads] using bytes_digits ha (b := 0) (c := 0) (by omega) (by omega)
  | case4 => simp [encode, decode, pads]

variable [DecidableEq σ]

/-- A group before a longer text does not touch the padding. -/
theorem padding_group (w x y z : σ) {rest : List σ} (h : 2 ≤ rest.length) :
    A.padding (w :: x :: y :: z :: rest) = A.padding rest := by
  unfold padding
  rw [show (w :: x :: y :: z :: rest).length - 2 = (rest.length - 2) + 4 by
    simp only [List.length_cons]
    omega]
  rfl

/-- **The padding of a text** counts the bytes its last group lacks. -/
theorem padding_encode {bs : List ℕ} (h : ∀ b ∈ bs, b < 256) :
    A.padding (A.encode bs) = pads bs.length := by
  induction bs using encode.induct with
  | case1 a b c rest ih =>
    rw [List.forall_mem_cons, List.forall_mem_cons, List.forall_mem_cons] at h
    obtain ⟨ha, hb, hc, hrest⟩ := h
    have hlen : pads (a :: b :: c :: rest).length = pads rest.length := by
      simp only [pads, List.length_cons]
      omega
    rw [encode, hlen]
    cases rest with
    | nil =>
      have hy : A.char (b % 16 * 4 + c / 64) ≠ A.pad := A.char_ne_pad _ (by omega)
      have hz : A.char (c % 64) ≠ A.pad := A.char_ne_pad _ (by omega)
      simp [padding, encode, pads, hy, hz]
    | cons d rest =>
      rw [padding_group, ih hrest]
      rw [length_encode, List.length_cons]
      omega
  | case2 a b =>
    have hb : b < 256 := h b (by simp)
    have hy : A.char (b % 16 * 4) ≠ A.pad := A.char_ne_pad _ (by omega)
    simp [padding, encode, pads, hy]
  | case3 a => simp [padding, encode, pads]
  | case4 => simp [padding, encode, pads]

end Alphabet

end LowPower
