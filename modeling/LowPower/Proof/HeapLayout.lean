import LowPower.Lib.Blocks
import LowPower.Spec.Heap

/-!
# The blocks of the heap

The headers of the heap link the blocks of its region (`Linked`). A write to a header leaves the
others and all payloads as they are, so each edit of `mem.c` is an edit of the list of blocks:

* `Linked.setBlock`: a block is marked.
* `Linked.join`: two neighbours become one.
* `Linked.split`: a block is cut in two.
-/

namespace LowPower

open Blocks

variable {h h' : Heap} {p q : ℕ} {l pre post : List Block}

/-! ## Sizes -/

theorem and_not_three (x : U32) : x &&& ~~~(rtAlignSize - 1) = (x >>> 2) <<< 2 := by
  have hmask : ∀ i : Fin 32, (~~~(rtAlignSize - 1)).getLsbD i = decide (2 ≤ i.val) := by decide
  refine BitVec.eq_of_getLsbD_eq fun i hi => ?_
  rw [BitVec.getLsbD_and, hmask ⟨i, hi⟩, BitVec.getLsbD_shiftLeft, BitVec.getLsbD_ushiftRight]
  by_cases hlow : i < 2
  · simp [hlow]
  · have hadd : 2 + (i - 2) = i := by omega
    simp [hlow, hi, Nat.le_of_not_lt hlow, hadd]

theorem toNat_rtAlignDown (x : U32) : (rtAlignDown x).toNat = x.toNat / 4 * 4 := by
  have hx := x.isLt
  rw [rtAlignDown, and_not_three, BitVec.toNat_shiftLeft, BitVec.toNat_ushiftRight,
    Nat.shiftRight_eq_div_pow, Nat.shiftLeft_eq]
  omega

/-- **A size is rounded up**, one close to the largest number to 0. -/
theorem toNat_rtAlign (x : U32) :
    (rtAlign x).toNat = if x.toNat + 3 < 2 ^ 32 then (x.toNat + 3) / 4 * 4 else 0 := by
  have hx := x.isLt
  have hdown : rtAlign x = rtAlignDown (x + 3) := rfl
  rw [hdown, toNat_rtAlignDown, BitVec.toNat_add]
  split
  · have hmod : (x.toNat + (3 : U32).toNat) % 2 ^ 32 = x.toNat + 3 := Nat.mod_eq_of_lt ‹_›
    rw [hmod]
  · have hmod : (x.toNat + (3 : U32).toNat) % 2 ^ 32 = x.toNat + 3 - 2 ^ 32 := by
      have hthree : (3 : U32).toNat = 3 := rfl
      omega
    rw [hmod]
    omega

theorem four_dvd_rtAlign (x : U32) : 4 ∣ (rtAlign x).toNat := by
  rw [toNat_rtAlign]
  split
  · exact Nat.dvd_mul_left _ _
  · exact Nat.dvd_zero 4

theorem and_three_eq_zero {x : U32} : x &&& (rtAlignSize - 1) = 0 ↔ 4 ∣ x.toNat := by
  have hmask : (rtAlignSize - 1 : U32).toNat = 2 ^ 2 - 1 := rfl
  rw [← BitVec.toNat_inj, BitVec.toNat_and, hmask, Nat.and_two_pow_sub_one_eq_mod]
  exact Nat.dvd_iff_mod_eq_zero.symm

/-! ## Headers -/

/-- The region of the heap: `heap_ptr` and the end are aligned, there is room for a block, and no
address wraps. -/
structure Region (h : Heap) : Prop where
  dvd_base : 4 ∣ h.heapPtr.toNat
  dvd_size : 4 ∣ h.memSizeAligned.toNat
  room : 12 ≤ h.memSizeAligned.toNat
  fits : h.heapPtr.toNat + h.memSizeAligned.toNat + 24 < 2 ^ 32

theorem Region.congr (hr : Region h) (hptr : h'.heapPtr = h.heapPtr)
    (hsize : h'.memSizeAligned = h.memSizeAligned) : Region h' := by
  refine ⟨?_, ?_, ?_, ?_⟩
  · exact hptr ▸ hr.dvd_base
  · exact hsize ▸ hr.dvd_size
  · exact hsize ▸ hr.room
  · rw [hptr, hsize]
    exact hr.fits

/-- Offsets of the region. -/
abbrev off (p : ℕ) : U32 := BitVec.ofNat 32 p

theorem off_toNat (x : U32) : off x.toNat = x :=
  (BitVec.ofNat_toNat 32 x).trans (BitVec.setWidth_eq x)

theorem Region.toNat_off (hr : Region h) (hp : p ≤ h.memSizeAligned.toNat + 24) :
    (off p).toNat = p := by
  have := hr.fits
  rw [BitVec.toNat_ofNat, Nat.mod_eq_of_lt (by omega)]

theorem Region.off_inj (hr : Region h) (hp : p ≤ h.memSizeAligned.toNat + 24)
    (hq : q ≤ h.memSizeAligned.toNat + 24) : off p = off q ↔ p = q := by
  rw [← BitVec.toNat_inj, hr.toNat_off hp, hr.toNat_off hq]

theorem Region.addr_off (hr : Region h) (hp : p ≤ h.memSizeAligned.toNat + 12) :
    h.addr (off p) = h.heapPtr.toNat + p := by
  have := hr.fits
  rw [Heap.addr, BitVec.toNat_add, hr.toNat_off (by omega), Nat.mod_eq_of_lt (by omega)]

theorem Region.heapEnd_eq (hr : Region h) : h.heapEnd = off (h.memSizeAligned.toNat + 12) := by
  have hfits := hr.fits
  rw [← BitVec.toNat_inj, hr.toNat_off (by omega), Heap.heapEnd, BitVec.toNat_add]
  exact Nat.mod_eq_of_lt (show h.memSizeAligned.toNat + 12 < 2 ^ 32 by omega)

/-- A step writes to the headers at some addresses at most. -/
structure Writes (h h' : Heap) (as : List ℕ) : Prop where
  heapPtr : h'.heapPtr = h.heapPtr
  memSize : h'.memSizeAligned = h.memSizeAligned
  ram : ∀ x, (∀ a ∈ as, x < a ∨ a + 12 ≤ x) → h'.ram x = h.ram x

theorem Writes.refl (h : Heap) : Writes h h [] := ⟨rfl, rfl, fun _ _ => rfl⟩

theorem Writes.trans {h'' : Heap} {as bs : List ℕ} (hw : Writes h h' as) (hw' : Writes h' h'' bs) :
    Writes h h'' (as ++ bs) := by
  refine ⟨hw'.heapPtr.trans hw.heapPtr, hw'.memSize.trans hw.memSize, fun x hx => ?_⟩
  rw [hw'.ram x fun a ha => hx a (List.mem_append_right as ha),
    hw.ram x fun a ha => hx a (List.mem_append_left bs ha)]

theorem Writes.mono {as bs : List ℕ} (hw : Writes h h' as) (hsub : as ⊆ bs) : Writes h h' bs :=
  ⟨hw.heapPtr, hw.memSize, fun x hx => hw.ram x fun a ha => hx a (hsub ha)⟩

/-- Two writes to one header. -/
theorem Writes.again {h₁ : Heap} {ptr : U32} (hw : Writes h h₁ [h.addr ptr])
    (hw' : Writes h₁ h' [h₁.addr ptr]) : Writes h h' [h.addr ptr] := by
  have haddr : h₁.addr ptr = h.addr ptr := by rw [Heap.addr, Heap.addr, hw.heapPtr]
  rw [haddr] at hw'
  exact (hw.trans hw').mono (List.append_subset.mpr ⟨List.Subset.refl _, List.Subset.refl _⟩)

section Set

variable (h : Heap) (ptr : U32)

theorem setMagic_writes (v : U16) : Writes h (h.setMagic ptr v) [h.addr ptr] := by
  refine ⟨rfl, rfl, fun x hx => Ram.store_of_out ?_⟩
  have := hx _ List.mem_cons_self
  omega

theorem setUsed_writes (v : U16) : Writes h (h.setUsed ptr v) [h.addr ptr] := by
  refine ⟨rfl, rfl, fun x hx => Ram.store_of_out ?_⟩
  have := hx _ List.mem_cons_self
  omega

theorem setNext_writes (v : U32) : Writes h (h.setNext ptr v) [h.addr ptr] := by
  refine ⟨rfl, rfl, fun x hx => Ram.store_of_out ?_⟩
  have := hx _ List.mem_cons_self
  omega

theorem setPrev_writes (v : U32) : Writes h (h.setPrev ptr v) [h.addr ptr] := by
  refine ⟨rfl, rfl, fun x hx => Ram.store_of_out ?_⟩
  have := hx _ List.mem_cons_self
  omega

/-- A write leaves the counters as they are. -/
@[simp]
theorem setMagic_lfree (v : U16) : (h.setMagic ptr v).lfree = h.lfree := rfl

@[simp]
theorem setUsed_lfree (v : U16) : (h.setUsed ptr v).lfree = h.lfree := rfl

@[simp]
theorem setNext_lfree (v : U32) : (h.setNext ptr v).lfree = h.lfree := rfl

@[simp]
theorem setPrev_lfree (v : U32) : (h.setPrev ptr v).lfree = h.lfree := rfl

@[simp]
theorem setMagic_usedMem (v : U16) : (h.setMagic ptr v).usedMem = h.usedMem := rfl

@[simp]
theorem setUsed_usedMem (v : U16) : (h.setUsed ptr v).usedMem = h.usedMem := rfl

@[simp]
theorem setNext_usedMem (v : U32) : (h.setNext ptr v).usedMem = h.usedMem := rfl

@[simp]
theorem setPrev_usedMem (v : U32) : (h.setPrev ptr v).usedMem = h.usedMem := rfl

@[simp]
theorem setMagic_maxMem (v : U16) : (h.setMagic ptr v).maxMem = h.maxMem := rfl

@[simp]
theorem setUsed_maxMem (v : U16) : (h.setUsed ptr v).maxMem = h.maxMem := rfl

@[simp]
theorem setNext_maxMem (v : U32) : (h.setNext ptr v).maxMem = h.maxMem := rfl

@[simp]
theorem setPrev_maxMem (v : U32) : (h.setPrev ptr v).maxMem = h.maxMem := rfl

end Set

/-- A header of bytes that are as they were. -/
theorem mem_congr (hptr : h'.heapPtr = h.heapPtr) {ptr : U32}
    (h_eq : ∀ x, h.addr ptr ≤ x → x < h.addr ptr + 12 → h'.ram x = h.ram x) :
    h'.mem ptr = h.mem ptr := by
  have haddr : h'.addr ptr = h.addr ptr := by rw [Heap.addr, Heap.addr, hptr]
  have hload : ∀ k n, k + n ≤ 12 →
      Ram.load h'.ram (h.addr ptr + k) n = Ram.load h.ram (h.addr ptr + k) n := by
    intro k n hk
    refine Ram.load_congr fun x hle hlt => h_eq x (by omega) (by omega)
  have hmagic := hload 0 2 (by omega)
  rw [Nat.add_zero] at hmagic
  rw [Heap.mem, Heap.mem, haddr, hmagic, hload 2 2 (by omega), hload 4 4 (by omega),
    hload 8 4 (by omega)]

/-- **The other headers stay.** -/
theorem Writes.mem {as : List ℕ} (hw : Writes h h' as) {ptr : U32}
    (hapart : ∀ a ∈ as, h.addr ptr + 12 ≤ a ∨ a + 12 ≤ h.addr ptr) : h'.mem ptr = h.mem ptr := by
  refine mem_congr hw.heapPtr fun x hle hlt => hw.ram x fun a ha => ?_
  have := hapart a ha
  omega

/-- A field that is written is read back. -/
theorem load_store_field {w : ℕ} (m : Ram.Memory) (a n : ℕ) (hw : 2 ^ w = 256 ^ n) (v : BitVec w) :
    BitVec.ofNat w (Ram.load (Ram.store m a n v.toNat) a n) = v := by
  rw [Ram.load_store, ← hw, Nat.mod_eq_of_lt v.isLt, BitVec.ofNat_toNat, BitVec.setWidth_eq]

/-- The header in the twelve bytes from an address on. -/
def memAt (m : Ram.Memory) (a : ℕ) : HeapMem :=
  ⟨BitVec.ofNat 16 (Ram.load m a 2), BitVec.ofNat 16 (Ram.load m (a + 2) 2),
    BitVec.ofNat 32 (Ram.load m (a + 4) 4), BitVec.ofNat 32 (Ram.load m (a + 8) 4)⟩

section Fields

variable (m : Ram.Memory) (a : ℕ)

theorem memAt_magic (v : U16) :
    memAt (Ram.store m a 2 v.toNat) a = { memAt m a with magic := v } := by
  simp only [memAt, load_store_field m a 2 rfl v]
  rw [Ram.load_store_of_out (by omega), Ram.load_store_of_out (by omega),
    Ram.load_store_of_out (by omega)]

theorem memAt_used (v : U16) :
    memAt (Ram.store m (a + 2) 2 v.toNat) a = { memAt m a with used := v } := by
  simp only [memAt, load_store_field m (a + 2) 2 rfl v]
  rw [Ram.load_store_of_out (by omega), Ram.load_store_of_out (by omega),
    Ram.load_store_of_out (by omega)]

theorem memAt_next (v : U32) :
    memAt (Ram.store m (a + 4) 4 v.toNat) a = { memAt m a with next := v } := by
  simp only [memAt, load_store_field m (a + 4) 4 rfl v]
  rw [Ram.load_store_of_out (by omega), Ram.load_store_of_out (by omega),
    Ram.load_store_of_out (by omega)]

theorem memAt_prev (v : U32) :
    memAt (Ram.store m (a + 8) 4 v.toNat) a = { memAt m a with prev := v } := by
  simp only [memAt, load_store_field m (a + 8) 4 rfl v]
  rw [Ram.load_store_of_out (by omega), Ram.load_store_of_out (by omega),
    Ram.load_store_of_out (by omega)]

end Fields

section Same

variable (h : Heap) (ptr : U32)

theorem mem_setMagic (v : U16) : (h.setMagic ptr v).mem ptr = { h.mem ptr with magic := v } :=
  memAt_magic h.ram (h.addr ptr) v

theorem mem_setUsed (v : U16) : (h.setUsed ptr v).mem ptr = { h.mem ptr with used := v } :=
  memAt_used h.ram (h.addr ptr) v

theorem mem_setNext (v : U32) : (h.setNext ptr v).mem ptr = { h.mem ptr with next := v } :=
  memAt_next h.ram (h.addr ptr) v

theorem mem_setPrev (v : U32) : (h.setPrev ptr v).mem ptr = { h.mem ptr with prev := v } :=
  memAt_prev h.ram (h.addr ptr) v

end Same

/-! ## Payloads -/

/-- A step leaves the payloads of these blocks and all that lies outside of the region. -/
structure Keeps (h h' : Heap) (blocks : List (ℕ × ℕ)) : Prop where
  heapPtr : h'.heapPtr = h.heapPtr
  memSize : h'.memSizeAligned = h.memSizeAligned
  payload : ∀ q n, (q, n) ∈ blocks → ∀ i < n,
    h'.ram (h.heapPtr.toNat + q + 12 + i) = h.ram (h.heapPtr.toNat + q + 12 + i)
  outside : ∀ x, x < h.heapPtr.toNat ∨ h.heapPtr.toNat + h.memSizeAligned.toNat + 24 ≤ x →
    h'.ram x = h.ram x

theorem Keeps.refl (h : Heap) (blocks : List (ℕ × ℕ)) : Keeps h h blocks :=
  ⟨rfl, rfl, fun _ _ _ _ _ => rfl, fun _ _ => rfl⟩

theorem Keeps.trans {h'' : Heap} {blocks : List (ℕ × ℕ)} (hk : Keeps h h' blocks)
    (hk' : Keeps h' h'' blocks) : Keeps h h'' blocks := by
  refine ⟨hk'.heapPtr.trans hk.heapPtr, hk'.memSize.trans hk.memSize, fun q n hmem i hi => ?_,
    fun x hx => ?_⟩
  · have hsecond := hk'.payload q n hmem i hi
    rw [hk.heapPtr] at hsecond
    rw [hsecond, hk.payload q n hmem i hi]
  · have hsecond := hk'.outside x
    rw [hk.heapPtr, hk.memSize] at hsecond
    rw [hsecond hx, hk.outside x hx]

theorem Keeps.mono {blocks blocks' : List (ℕ × ℕ)} (hk : Keeps h h' blocks)
    (hsub : blocks' ⊆ blocks) : Keeps h h' blocks' :=
  ⟨hk.heapPtr, hk.memSize, fun q n hmem => hk.payload q n (hsub hmem), hk.outside⟩

/-- **A header is no payload**: what is written to headers of the region keeps every block in use. -/
theorem Writes.keeps {as : List ℕ} (hw : Writes h h' as)
    (hwidth : width 12 l = h.memSizeAligned.toNat + 12)
    (hcuts : ∀ a ∈ as, ∃ l₁ l₂, l = l₁ ++ l₂ ∧ a = h.heapPtr.toNat + width 12 l₁) :
    Keeps h h' (usedFrom 12 0 l) := by
  refine ⟨hw.heapPtr, hw.memSize, fun q n hmem i hi => hw.ram _ fun a ha => ?_,
    fun x hx => hw.ram x fun a ha => ?_⟩
  · obtain ⟨l₁, l₂, rfl, rfl⟩ := hcuts a ha
    have := usedFrom_apart hmem
    omega
  · obtain ⟨l₁, l₂, rfl, rfl⟩ := hcuts a ha
    rw [width_append] at hwidth
    omega

/-! ## The blocks -/

/-- The header of a block, with the offset of the one before it. -/
def Link (h : Heap) (prev p : ℕ) (b : Block) : Prop :=
  h.mem (off p) = ⟨heapMagic, if b.used then 1 else 0, off (p + 12 + b.size), off prev⟩

/-- The headers of the heap link these blocks. -/
structure Linked (h : Heap) (l : List Block) : Prop where
  region : Region h
  tiles : width 12 l = h.memSizeAligned.toNat + 12
  chain : Chain 12 (Link h) 0 0 l
  sizes : ∀ b ∈ l, 4 ∣ b.size ∧ 4 ≤ b.size
  heap_end : (h.mem h.heapEnd).used ≠ 0

theorem chain_frame {prev : ℕ} (hc : Chain 12 (Link h) prev p l)
    (hsame : ∀ q, p ≤ q → q + 12 ≤ p + width 12 l → h'.mem (off q) = h.mem (off q)) :
    Chain 12 (Link h') prev p l :=
  hc.imp fun _ q b hq hend hlink => (hsame q hq (by omega)).trans hlink

/-- The first block gets another one before it. -/
theorem chain_relink {prev prev' : ℕ} (hc : Chain 12 (Link h) prev p l)
    (hfirst : l ≠ [] → h'.mem (off p) = { h.mem (off p) with prev := off prev' })
    (hsame : ∀ q, p + 12 ≤ q → q + 12 ≤ p + width 12 l → h'.mem (off q) = h.mem (off q)) :
    Chain 12 (Link h') prev' p l := by
  cases l with
  | nil => trivial
  | cons b l =>
    rw [width_cons] at hsame
    refine ⟨?_, chain_frame hc.2 fun q hq hend => hsame q (by omega) (by omega)⟩
    have hlink : h.mem (off p) = _ := hc.1
    rw [Link, hfirst (List.cons_ne_nil b l), hlink]

/-- **An edit between two cuts.** -/
theorem Linked.replace (pre mid mid' post : List Block) (hl : Linked h (pre ++ (mid ++ post)))
    (hptr : h'.heapPtr = h.heapPtr) (hsize : h'.memSizeAligned = h.memSizeAligned)
    (hwidth : width 12 mid' = width 12 mid) (hsizes : ∀ b ∈ mid', 4 ∣ b.size ∧ 4 ≤ b.size)
    (hpre : ∀ q, q + 12 ≤ width 12 pre → h'.mem (off q) = h.mem (off q))
    (hmid : Chain 12 (Link h') (lastFrom 12 0 0 pre) (width 12 pre) mid')
    (hpost : Chain 12 (Link h') (lastFrom 12 (lastFrom 12 0 0 pre) (width 12 pre) mid')
      (width 12 pre + width 12 mid') post)
    (hend : (h'.mem h.heapEnd).used ≠ 0) : Linked h' (pre ++ (mid' ++ post)) := by
  obtain ⟨hchain, -⟩ := chain_append.mp hl.chain
  refine ⟨hl.region.congr hptr hsize, ?_, ?_, ?_, ?_⟩
  · have := hl.tiles
    rw [width_append, width_append] at this ⊢
    rw [hwidth, hsize]
    exact this
  · rw [chain_append, chain_append, Nat.zero_add]
    refine ⟨chain_frame hchain fun q _ hq => hpre q ?_, hmid, hpost⟩
    rw [Nat.zero_add] at hq
    exact hq
  · intro b hb
    rw [List.mem_append, List.mem_append] at hb
    rcases hb with hb | hb | hb
    · exact hl.sizes b (List.mem_append_left _ hb)
    · exact hsizes b hb
    · exact hl.sizes b (List.mem_append_right _ (List.mem_append_right _ hb))
  · rw [Heap.heapEnd, hsize]
    exact hend

theorem Linked.mem_at {b : Block} (hl : Linked h (pre ++ b :: post)) :
    h.mem (off (width 12 pre)) = ⟨heapMagic, if b.used then 1 else 0,
      off (width 12 pre + 12 + b.size), off (lastFrom 12 0 0 pre)⟩ := by
  have hlink := (chain_append.mp hl.chain).2.1
  rw [Nat.zero_add] at hlink
  exact hlink

/-- The headers beside those that are written. -/
theorem Writes.mem_off {qs : List ℕ} (hr : Region h)
    (hw : Writes h h' (qs.map (h.heapPtr.toNat + ·))) (hp : p ≤ h.memSizeAligned.toNat + 12)
    (hapart : ∀ q ∈ qs, p + 12 ≤ q ∨ q + 12 ≤ p) : h'.mem (off p) = h.mem (off p) := by
  refine hw.mem fun a ha => ?_
  obtain ⟨q, hq, rfl⟩ := List.mem_map.mp ha
  have := hapart q hq
  rw [hr.addr_off hp]
  omega

/-- **A block is marked.** -/
theorem Linked.setBlock {n : ℕ} {u u' : Bool} (hl : Linked h (pre ++ ⟨n, u⟩ :: post))
    (hw : Writes h h' ([width 12 pre].map (h.heapPtr.toNat + ·)))
    (hmem : h'.mem (off (width 12 pre)) =
      { h.mem (off (width 12 pre)) with used := if u' then 1 else 0 }) :
    Linked h' (pre ++ ⟨n, u'⟩ :: post) := by
  have hr := hl.region
  have htiles := hl.tiles
  have hsizes := hl.sizes
  obtain ⟨-, hlink, hpost⟩ := chain_append.mp hl.chain
  rw [width_append, width_cons] at htiles
  rw [Nat.zero_add] at hpost
  have hother : ∀ q ≤ h.memSizeAligned.toNat + 12, q + 12 ≤ width 12 pre ∨ width 12 pre + 12 ≤ q →
      h'.mem (off q) = h.mem (off q) := by
    intro q hq hapart
    refine hw.mem_off hr hq fun a ha => ?_
    obtain rfl := List.mem_singleton.mp ha
    exact hapart
  refine Linked.replace pre [⟨n, u⟩] [⟨n, u'⟩] post hl hw.heapPtr hw.memSize rfl ?_ ?_ ?_ ?_ ?_
  · intro b hb
    obtain rfl := List.mem_singleton.mp hb
    exact hsizes ⟨n, u⟩ (List.mem_append_right pre List.mem_cons_self)
  · intro q hq
    exact hother q (by omega) (.inl hq)
  · refine ⟨?_, trivial⟩
    rw [Link, hmem, hl.mem_at]
  · have hpos : width 12 pre + width 12 [⟨n, u'⟩] = width 12 pre + 12 + n := by
      simp only [width_cons, width_nil]
      omega
    rw [hpos]
    refine chain_frame hpost fun q hq hend => hother q ?_ ?_
    all_goals
      dsimp only at htiles hq hend
      omega
  · rw [hr.heapEnd_eq, hother _ (Nat.le_refl _) (by omega), ← hr.heapEnd_eq]
    exact hl.heap_end

theorem Writes.set_two {qs : List ℕ} (hr : Region h) {q₁ q₂ : ℕ} {h₁ h₂ : Heap}
    (hw₁ : Writes h h₁ [h.addr (off q₁)]) (hw₂ : Writes h₁ h₂ [h.addr (off q₂)])
    (hq₁ : q₁ ≤ h.memSizeAligned.toNat + 12) (hq₂ : q₂ ≤ h.memSizeAligned.toNat + 12)
    (hqs : [q₁, q₂] ⊆ qs) : Writes h h₂ (qs.map (h.heapPtr.toNat + ·)) := by
  rw [hr.addr_off hq₁] at hw₁
  rw [hr.addr_off hq₂] at hw₂
  refine (hw₁.trans hw₂).mono fun a ha => List.mem_map.mpr ?_
  rcases List.mem_cons.mp ha with rfl | ha
  · exact ⟨q₁, hqs List.mem_cons_self, rfl⟩
  · obtain rfl := List.mem_singleton.mp ha
    exact ⟨q₂, hqs (List.mem_cons_of_mem _ List.mem_cons_self), rfl⟩

/-- Another header than the one that is written. -/
theorem Writes.mem_one (hr : Region h) (hw : Writes h h' [h.addr (off q)])
    (hp : p ≤ h.memSizeAligned.toNat + 12) (hq : q ≤ h.memSizeAligned.toNat + 12)
    (hapart : p + 12 ≤ q ∨ q + 12 ≤ p) : h'.mem (off p) = h.mem (off p) := by
  rw [hr.addr_off hq] at hw
  have hwrites : Writes h h' ([q].map (h.heapPtr.toNat + ·)) := hw
  refine hwrites.mem_off hr hp fun a ha => ?_
  obtain rfl := List.mem_singleton.mp ha
  exact hapart

/-- **Two neighbours become one**: the first one gets the next of the second. -/
theorem Linked.join {n m pa pc : ℕ} {u v : Bool} (hl : Linked h (pre ++ ⟨n, u⟩ :: ⟨m, v⟩ :: post))
    (hpa : pa = width 12 pre) (hpc : pc = pa + 12 + n + 12 + m) :
    Linked ((h.setNext (off pa) (off pc)).setPrev (off pc) (off pa))
        (pre ++ ⟨n + 12 + m, u⟩ :: post) ∧
      Writes h ((h.setNext (off pa) (off pc)).setPrev (off pc) (off pa))
        ([pa, pc].map (h.heapPtr.toNat + ·)) := by
  have hr := hl.region
  have htiles := hl.tiles
  have hsizes := hl.sizes
  have hat := hl.mem_at
  obtain ⟨-, -, -, hpost⟩ := chain_append.mp hl.chain
  simp only [width_append, width_cons] at htiles
  rw [Nat.zero_add, ← hpa] at hpost
  dsimp only at hpost hat
  rw [← hpc] at hpost
  rw [← hpa] at hat
  have hle : pc + width 12 post = h.memSizeAligned.toNat + 12 := by omega
  -- the two writes, one after the other
  have hr₁ : Region (h.setNext (off pa) (off pc)) := hr.congr rfl rfl
  have hw₁ := setNext_writes h (off pa) (off pc)
  have hw₂ := setPrev_writes (h.setNext (off pa) (off pc)) (off pc) (off pa)
  have hw := Writes.set_two hr hw₁ hw₂ (by omega) (by omega) (List.Subset.refl _)
  have hother : ∀ q ≤ h.memSizeAligned.toNat + 12, (q + 12 ≤ pa ∨ pa + 12 ≤ q) →
      (q + 12 ≤ pc ∨ pc + 12 ≤ q) →
      ((h.setNext (off pa) (off pc)).setPrev (off pc) (off pa)).mem (off q) = h.mem (off q) := by
    intro q hq hqa hqc
    rw [hw₂.mem_one hr₁ hq (show pc ≤ h.memSizeAligned.toNat + 12 by omega) hqc,
      hw₁.mem_one hr hq (by omega) hqa]
  have hfirst : ((h.setNext (off pa) (off pc)).setPrev (off pc) (off pa)).mem (off pa) =
      { h.mem (off pa) with next := off pc } := by
    rw [hw₂.mem_one hr₁ (show pa ≤ h.memSizeAligned.toNat + 12 by omega)
      (show pc ≤ h.memSizeAligned.toNat + 12 by omega) (by omega), mem_setNext]
  have hlast : ((h.setNext (off pa) (off pc)).setPrev (off pc) (off pa)).mem (off pc) =
      { h.mem (off pc) with prev := off pa } := by
    rw [mem_setPrev, hw₁.mem_one hr (by omega) (by omega) (by omega)]
  refine ⟨?_, hw⟩
  have hpos : width 12 pre + width 12 [⟨n + 12 + m, u⟩] = pc := by
    simp only [width_cons, width_nil]
    omega
  refine Linked.replace pre [⟨n, u⟩, ⟨m, v⟩] [⟨n + 12 + m, u⟩] post hl hw.heapPtr hw.memSize ?_ ?_ ?_ ?_ ?_ ?_
  · simp only [width_cons, width_nil]
    omega
  · intro b hb
    obtain rfl := List.mem_singleton.mp hb
    have hn := hsizes ⟨n, u⟩ (List.mem_append_right pre List.mem_cons_self)
    have hm := hsizes ⟨m, v⟩
      (List.mem_append_right pre (List.mem_cons_of_mem _ List.mem_cons_self))
    dsimp only at hn hm ⊢
    omega
  · intro q hq
    exact hother q (by omega) (by omega) (by omega)
  · refine ⟨?_, trivial⟩
    have hnext : pa + 12 + n + 12 + m = pa + 12 + (n + 12 + m) := by omega
    rw [Link, ← hpa, hfirst, hat, hpc, hnext]
  · rw [hpos]
    refine chain_relink (hpa ▸ hpost) (fun _ => hpa ▸ hlast) fun q hq hend => ?_
    exact hother q (by omega) (by omega) (by omega)
  · rw [hr.heapEnd_eq]
    by_cases hend : pc = h.memSizeAligned.toNat + 12
    · rw [← hend, hlast, hend, ← hr.heapEnd_eq]
      exact hl.heap_end
    · have hheader : post ≠ [] := by
        rintro rfl
        exact hend hle
      obtain ⟨c, rest, rfl⟩ := List.exists_cons_of_ne_nil hheader
      rw [width_cons] at hle
      rw [hother _ (Nat.le_refl _) (by omega) (by omega), ← hr.heapEnd_eq]
      exact hl.heap_end

section Split

/-- The header of a free block at `p₂`, between the block at `pa` and the one at `pc`. -/
def writeMem2 (h : Heap) (pa p₂ pc : U32) : Heap :=
  ((((h.setMagic p₂ heapMagic).setUsed p₂ 0).setNext p₂ pc).setPrev p₂ pa).setNext pa p₂

/-- What `insertMem2` does is one header and the links to it. -/
theorem insertMem2_def (h : Heap) (pa p₂ : U32) : h.insertMem2 pa p₂ =
    if ((writeMem2 h pa p₂ (((h.setMagic p₂ heapMagic).setUsed p₂ 0).mem pa).next).mem p₂).next ≠
        (writeMem2 h pa p₂ (((h.setMagic p₂ heapMagic).setUsed p₂ 0).mem pa).next).heapEnd then
      (writeMem2 h pa p₂ (((h.setMagic p₂ heapMagic).setUsed p₂ 0).mem pa).next).setPrev
        ((writeMem2 h pa p₂ (((h.setMagic p₂ heapMagic).setUsed p₂ 0).mem pa).next).mem p₂).next p₂
    else writeMem2 h pa p₂ (((h.setMagic p₂ heapMagic).setUsed p₂ 0).mem pa).next := rfl

variable {pa p₂ pc : ℕ} (hr : Region h) (ha : pa + 12 ≤ p₂) (hb : p₂ + 12 ≤ pc)
  (hc : pc ≤ h.memSizeAligned.toNat + 12)

include hr ha hb hc

theorem writeMem2_writes : Writes h (writeMem2 h (off pa) (off p₂) (off pc))
    ([p₂, pa].map (h.heapPtr.toNat + ·)) := by
  have hw := (((setMagic_writes h (off p₂) heapMagic).again (setUsed_writes _ (off p₂) 0)).again
    (setNext_writes _ (off p₂) (off pc))).again (setPrev_writes _ (off p₂) (off pa))
  exact Writes.set_two hr hw (setNext_writes _ (off pa) (off p₂)) (by omega) (by omega)
    (List.Subset.refl _)

theorem writeMem2_mem_new : (writeMem2 h (off pa) (off p₂) (off pc)).mem (off p₂) =
    ⟨heapMagic, 0, off pc, off pa⟩ := by
  have hr₄ : Region ((((h.setMagic (off p₂) heapMagic).setUsed (off p₂) 0).setNext (off p₂)
      (off pc)).setPrev (off p₂) (off pa)) := hr.congr rfl rfl
  rw [writeMem2, (setNext_writes _ (off pa) (off p₂)).mem_one hr₄
    (show p₂ ≤ h.memSizeAligned.toNat + 12 by omega)
    (show pa ≤ h.memSizeAligned.toNat + 12 by omega) (.inr ha), mem_setPrev, mem_setNext, mem_setUsed,
    mem_setMagic]

theorem writeMem2_mem_old : (writeMem2 h (off pa) (off p₂) (off pc)).mem (off pa) =
    { h.mem (off pa) with next := off p₂ } := by
  have hpa : pa ≤ h.memSizeAligned.toNat + 12 := by omega
  have hp₂ : p₂ ≤ h.memSizeAligned.toNat + 12 := by omega
  have hw : Writes h ((((h.setMagic (off p₂) heapMagic).setUsed (off p₂) 0).setNext (off p₂)
      (off pc)).setPrev (off p₂) (off pa)) [h.addr (off p₂)] :=
    (((setMagic_writes h (off p₂) heapMagic).again (setUsed_writes _ (off p₂) 0)).again
      (setNext_writes _ (off p₂) (off pc))).again (setPrev_writes _ (off p₂) (off pa))
  rw [writeMem2, mem_setNext, hw.mem_one hr hpa hp₂ (.inl ha)]

/-- `insertMem2` in closed form, from what the header of the block says. -/
theorem insertMem2_eq (hnext : (h.mem (off pa)).next = off pc) :
    h.insertMem2 (off pa) (off p₂) =
      if off pc ≠ h.heapEnd then (writeMem2 h (off pa) (off p₂) (off pc)).setPrev (off pc) (off p₂)
      else writeMem2 h (off pa) (off p₂) (off pc) := by
  have hpa : pa ≤ h.memSizeAligned.toNat + 12 := by omega
  have hp₂ : p₂ ≤ h.memSizeAligned.toNat + 12 := by omega
  have hread : (((h.setMagic (off p₂) heapMagic).setUsed (off p₂) 0).mem (off pa)).next = off pc := by
    have hw : Writes h ((h.setMagic (off p₂) heapMagic).setUsed (off p₂) 0) [h.addr (off p₂)] :=
      (setMagic_writes h (off p₂) heapMagic).again (setUsed_writes _ (off p₂) 0)
    rw [hw.mem_one hr hpa hp₂ (.inl ha), hnext]
  have hend : (writeMem2 h (off pa) (off p₂) (off pc)).heapEnd = h.heapEnd := by
    rw [Heap.heapEnd, Heap.heapEnd, (writeMem2_writes hr ha hb hc).memSize]
  rw [insertMem2_def, hread, writeMem2_mem_new hr ha hb hc, hend]

/-- The headers after `insertMem2`. -/
theorem insertMem2_mem (hnext : (h.mem (off pa)).next = off pc) :
    Writes h (h.insertMem2 (off pa) (off p₂)) ([p₂, pa, pc].map (h.heapPtr.toNat + ·)) ∧
      (h.insertMem2 (off pa) (off p₂)).mem (off p₂) = ⟨heapMagic, 0, off pc, off pa⟩ ∧
      (h.insertMem2 (off pa) (off p₂)).mem (off pa) = { h.mem (off pa) with next := off p₂ } ∧
      (h.insertMem2 (off pa) (off p₂)).mem (off pc) =
        if pc ≠ h.memSizeAligned.toNat + 12 then { h.mem (off pc) with prev := off p₂ }
        else h.mem (off pc) := by
  have hw := writeMem2_writes hr ha hb hc
  have hr' : Region (writeMem2 h (off pa) (off p₂) (off pc)) := hr.congr hw.heapPtr hw.memSize
  have hnew := writeMem2_mem_new hr ha hb hc
  have hold := writeMem2_mem_old hr ha hb hc
  have hlast : (writeMem2 h (off pa) (off p₂) (off pc)).mem (off pc) = h.mem (off pc) := by
    refine hw.mem_off hr hc fun a hmem => ?_
    simp only [List.mem_cons, List.not_mem_nil, or_false] at hmem
    omega
  have hpc : off pc = h.heapEnd ↔ pc = h.memSizeAligned.toNat + 12 := by
    rw [hr.heapEnd_eq, hr.off_inj (by omega) (by omega)]
  rw [insertMem2_eq hr ha hb hc hnext]
  simp only [ne_eq, hpc]
  split
  · have hw' := setPrev_writes (writeMem2 h (off pa) (off p₂) (off pc)) (off pc) (off p₂)
    have hpc' : pc ≤ (writeMem2 h (off pa) (off p₂) (off pc)).memSizeAligned.toNat + 12 := hc
    refine ⟨?_, ?_, ?_, ?_⟩
    · rw [hr'.addr_off hpc', hw.heapPtr] at hw'
      exact hw.trans hw'
    · rw [hw'.mem_one hr' (Nat.le_trans (by omega) hpc') hpc' (.inl hb), hnew]
    · rw [hw'.mem_one hr' (Nat.le_trans (by omega) hpc') hpc' (.inl (by omega)), hold]
    · rw [mem_setPrev, hlast]
  · refine ⟨hw.mono ?_, hnew, hold, hlast⟩
    exact List.map_subset _ fun a hmem => List.mem_append_left [pc] hmem

end Split

@[simp]
theorem insertMem2_lfree (h : Heap) (ptr ptr2 : U32) : (h.insertMem2 ptr ptr2).lfree = h.lfree := by
  rw [insertMem2_def]
  split <;> simp [writeMem2]

@[simp]
theorem insertMem2_usedMem (h : Heap) (ptr ptr2 : U32) :
    (h.insertMem2 ptr ptr2).usedMem = h.usedMem := by
  rw [insertMem2_def]
  split <;> simp [writeMem2]

@[simp]
theorem insertMem2_maxMem (h : Heap) (ptr ptr2 : U32) :
    (h.insertMem2 ptr ptr2).maxMem = h.maxMem := by
  rw [insertMem2_def]
  split <;> simp [writeMem2]

/-- **A block is cut in two**, the second one free. -/
theorem Linked.split {n s r pa p₂ : ℕ} {u : Bool} (hl : Linked h (pre ++ ⟨n, u⟩ :: post))
    (hpa : pa = width 12 pre) (hp₂ : p₂ = pa + 12 + s) (hn : n = s + 12 + r) (hs : 4 ∣ s ∧ 4 ≤ s)
    (hrest : 4 ≤ r) :
    Linked (h.insertMem2 (off pa) (off p₂)) (pre ++ ⟨s, u⟩ :: ⟨r, false⟩ :: post) ∧
      Writes h (h.insertMem2 (off pa) (off p₂))
        ([p₂, pa, pa + 12 + n].map (h.heapPtr.toNat + ·)) := by
  have hr := hl.region
  have htiles := hl.tiles
  have hsizes := hl.sizes
  have hat := hl.mem_at
  obtain ⟨-, -, hpost⟩ := chain_append.mp hl.chain
  simp only [width_append, width_cons] at htiles
  rw [Nat.zero_add, ← hpa] at hpost
  dsimp only at hpost hat
  rw [← hpa] at hat
  obtain ⟨hw, hnew, hold, hnext⟩ := insertMem2_mem hr (by omega : pa + 12 ≤ p₂) (by omega) (by omega)
    (congrArg HeapMem.next hat)
  have hother : ∀ q ≤ h.memSizeAligned.toNat + 12, (q + 12 ≤ pa ∨ pa + 12 + n + 12 ≤ q) →
      (h.insertMem2 (off pa) (off p₂)).mem (off q) = h.mem (off q) := by
    intro q hq hqa
    refine hw.mem_off hr hq fun a ha => ?_
    simp only [List.mem_cons, List.not_mem_nil, or_false] at ha
    omega
  refine ⟨?_, hw⟩
  have hpos : width 12 pre + width 12 [⟨s, u⟩, ⟨r, false⟩] = pa + 12 + n := by
    simp only [width_cons, width_nil]
    omega
  have hpos' : width 12 pre + 12 + s = p₂ := by omega
  refine Linked.replace pre [⟨n, u⟩] [⟨s, u⟩, ⟨r, false⟩] post hl hw.heapPtr hw.memSize ?_ ?_ ?_ ?_ ?_ ?_
  · simp only [width_cons, width_nil]
    omega
  · intro b hb
    have hsize := hsizes ⟨n, u⟩ (List.mem_append_right pre List.mem_cons_self)
    dsimp only at hsize
    rcases List.mem_cons.mp hb with rfl | hb
    · exact hs
    · obtain rfl := List.mem_singleton.mp hb
      dsimp only
      omega
  · intro q hq
    exact hother q (by omega) (by omega)
  · refine ⟨?_, ?_, trivial⟩
    · rw [Link, ← hpa, hold, hat, hp₂]
    · have hend : p₂ + 12 + r = pa + 12 + n := by omega
      rw [Link, hpos', hnew, hend, hpa]
      rfl
  · rw [hpos]
    have hlast : lastFrom 12 (lastFrom 12 0 0 pre) (width 12 pre) [⟨s, u⟩, ⟨r, false⟩] = p₂ := hpos'
    rw [hlast]
    refine chain_relink hpost (fun hne => ?_) fun q hq hend => hother q (by omega) (by omega)
    obtain ⟨c, rest, rfl⟩ := List.exists_cons_of_ne_nil hne
    rw [width_cons] at htiles
    rw [hnext, if_pos (by omega)]
  · rw [hr.heapEnd_eq]
    by_cases hend : pa + 12 + n = h.memSizeAligned.toNat + 12
    · rw [← hend, hnext, if_neg (not_not.mpr hend), hend, ← hr.heapEnd_eq]
      exact hl.heap_end
    · rw [hother _ (Nat.le_refl _) ?_, ← hr.heapEnd_eq]
      · exact hl.heap_end
      · obtain ⟨c, rest, rfl⟩ : ∃ c rest, post = c :: rest := by
          refine List.exists_cons_of_ne_nil ?_
          rintro rfl
          rw [width_nil] at htiles
          omega
        rw [width_cons] at htiles
        omega

end LowPower
