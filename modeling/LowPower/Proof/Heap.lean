import LowPower.Proof.HeapLayout

/-!
# The calls of the heap

`Laid` is what the calls keep: the headers link the blocks of a list, no two free ones are neighbours,
`lfree` is the lowest free one, and `used_mem` counts those in use.

* `Linked.plugHoles`: a free block is joined with its free neighbours.
* `Laid.free`: the block of a free is taken out of those in use.
* `Laid.malloc_some`, `Laid.malloc_none`: the first fit is taken, if there is one.
* `Laid.shrink`, `Linked.inPlace`: a block is cut to a smaller size, or stays.
* `rtSystemHeapInit_laid`: at the start the region is one free block.
-/

namespace LowPower

open Blocks

variable {h h' : Heap} {p q : ℕ} {l pre post : List Block}

/-! ## Plugging holes -/

/-- The first half of `plug_holes`. -/
def plugForward (h : Heap) (mem : U32) : Heap :=
  let nmem := (h.mem mem).next
  if mem ≠ nmem ∧ (h.mem nmem).used = 0 ∧ nmem ≠ h.heapEnd then
    let h := if h.lfree = nmem then { h with lfree := mem } else h
    let h := h.setNext mem (h.mem nmem).next
    h.setPrev (h.mem nmem).next mem
  else h

/-- The second half of `plug_holes`. -/
def plugBackward (h : Heap) (mem : U32) : Heap :=
  let pmem := (h.mem mem).prev
  if pmem ≠ mem ∧ (h.mem pmem).used = 0 then
    let h := if h.lfree = mem then { h with lfree := pmem } else h
    let h := h.setNext pmem (h.mem mem).next
    h.setPrev (h.mem mem).next pmem
  else h

theorem plugHoles_eq {mem : U32} (hbefore : mem < h.heapEnd) (hfree : (h.mem mem).used = 0) :
    h.plugHoles mem = some (plugBackward (plugForward h mem) mem) := by
  have hnot : ¬(h.heapEnd ≤ mem ∨ (h.mem mem).used ≠ 0) := by
    rintro (hle | hne)
    · exact absurd hbefore (BitVec.not_lt.mpr hle)
    · exact hne hfree
  unfold Heap.plugHoles
  rw [if_neg hnot]
  exact (apply_ite some _ _ _).symm

/-- What `used` says of a block. -/
theorem used_eq_zero {u : Bool} : (if u then (1 : U16) else 0) = 0 ↔ u = false := by
  cases u <;> decide

theorem Linked.used_at {b : Block} (hl : Linked h (pre ++ b :: post)) :
    (h.mem (off (width 12 pre))).used = 0 ↔ b.used = false := by
  rw [hl.mem_at]
  exact used_eq_zero

theorem Linked.lt_end {b : Block} (hl : Linked h (pre ++ b :: post)) :
    width 12 pre + 12 + b.size ≤ h.memSizeAligned.toNat + 12 := by
  have := hl.tiles
  rw [width_append, width_cons] at this
  omega

/-- Blocks are joined, none of them in use. -/
structure Plugged (h h' : Heap) (l l' : List Block) : Prop where
  linked : Linked h' l'
  used : usedFrom 12 0 l' = usedFrom 12 0 l
  first : firstFree 12 0 l' = firstFree 12 0 l
  lfree : h'.lfree = h.lfree
  usedMem : h'.usedMem = h.usedMem
  maxMem : h'.maxMem = h.maxMem
  keeps : Keeps h h' (usedFrom 12 0 l)

theorem Plugged.refl (hl : Linked h l) : Plugged h h l l :=
  ⟨hl, rfl, rfl, rfl, rfl, rfl, Keeps.refl h _⟩

theorem Plugged.trans {h'' : Heap} {l' l'' : List Block} (hp : Plugged h h' l l')
    (hp' : Plugged h' h'' l' l'') : Plugged h h'' l l'' :=
  ⟨hp'.linked, hp'.used.trans hp.used, hp'.first.trans hp.first, hp'.lfree.trans hp.lfree,
    hp'.usedMem.trans hp.usedMem, hp'.maxMem.trans hp.maxMem, hp.keeps.trans (hp.used ▸ hp'.keeps)⟩

/-- **Two free neighbours are joined** by the writes of `plug_holes`. -/
theorem Linked.plug {n m pa pb : ℕ} (hl : Linked h (pre ++ ⟨n, false⟩ :: ⟨m, false⟩ :: post))
    (hpa : pa = width 12 pre) (hpb : pb = pa + 12 + n) :
    Plugged h ((h.setNext (off pa) (h.mem (off pb)).next).setPrev
        ((h.setNext (off pa) (h.mem (off pb)).next).mem (off pb)).next (off pa))
      (pre ++ ⟨n, false⟩ :: ⟨m, false⟩ :: post) (pre ++ ⟨n + 12 + m, false⟩ :: post) := by
  have hr := hl.region
  have htiles := hl.tiles
  simp only [width_append, width_cons] at htiles
  have hlb : Linked h ((pre ++ [⟨n, false⟩]) ++ ⟨m, false⟩ :: post) := by
    rw [List.append_assoc]
    exact hl
  have hstart : width 12 (pre ++ [⟨n, false⟩]) = pb := by
    simp only [width_append, width_cons, width_nil]
    omega
  have hnext : (h.mem (off pb)).next = off (pb + 12 + m) := by
    rw [← hstart]
    exact congrArg HeapMem.next hlb.mem_at
  have hsame : (h.setNext (off pa) (off (pb + 12 + m))).mem (off pb) = h.mem (off pb) :=
    (setNext_writes h (off pa) _).mem_one hr (by omega) (by omega) (by omega)
  rw [hnext, hsame, hnext]
  obtain ⟨hjoin, hw⟩ := hl.join hpa (show pb + 12 + m = pa + 12 + n + 12 + m by omega)
  refine ⟨hjoin, usedFrom_join, ?_, rfl, rfl, rfl, ?_⟩
  · rw [firstFree_append_free (by decide), firstFree_append_free (by decide)]
  · rw [← usedFrom_join]
    refine hw.keeps ?_ fun a ha => ?_
    · have := hjoin.tiles
      exact this
    · simp only [List.map_cons, List.map_nil, List.mem_cons, List.not_mem_nil, or_false] at ha
      rcases ha with rfl | rfl
      · exact ⟨pre, _, rfl, hpa ▸ rfl⟩
      · refine ⟨pre ++ [⟨n + 12 + m, false⟩], post, ?_, ?_⟩
        · rw [List.append_assoc]
          rfl
        · simp only [width_append, width_cons, width_nil]
          omega

theorem Linked.plugForward {n : ℕ} (hl : Linked h (pre ++ ⟨n, false⟩ :: post))
    (hpost : NoFreePair post)
    (hlfree : h.lfree.toNat = firstFree 12 0 (pre ++ ⟨n, false⟩ :: post)) :
    ∃ m rest, Plugged h (plugForward h (off (width 12 pre))) (pre ++ ⟨n, false⟩ :: post)
      (pre ++ ⟨m, false⟩ :: rest) ∧ NoFreePair (⟨m, false⟩ :: rest) := by
  have hr := hl.region
  have hat := hl.mem_at
  have hend := hl.lt_end
  have htiles := hl.tiles
  rw [width_append, width_cons] at htiles
  dsimp only at hat hend htiles
  have hnext : (h.mem (off (width 12 pre))).next = off (width 12 pre + 12 + n) :=
    congrArg HeapMem.next hat
  unfold LowPower.plugForward
  rw [hnext]
  rcases post with _ | ⟨⟨m, _ | _⟩, rest⟩
  · -- the end of the heap is no block
    rw [width_nil] at htiles
    have hlast : off (width 12 pre + 12 + n) = h.heapEnd := by
      rw [hr.heapEnd_eq, hr.off_inj (by omega) (by omega)]
      omega
    refine ⟨n, [], ?_, List.isChain_singleton _⟩
    rw [if_neg fun hcond => hcond.2.2 hlast]
    exact .refl hl
  · rw [width_cons] at htiles
    have hlb : Linked h ((pre ++ [⟨n, false⟩]) ++ ⟨m, false⟩ :: rest) := by
      rw [List.append_assoc]
      exact hl
    have hstart : width 12 (pre ++ [⟨n, false⟩]) = width 12 pre + 12 + n := by
      simp only [width_append, width_cons, width_nil]
      omega
    have hused : (h.mem (off (width 12 pre + 12 + n))).used = 0 := hstart ▸ hlb.used_at.mpr rfl
    have hne : off (width 12 pre) ≠ off (width 12 pre + 12 + n) := by
      rw [ne_eq, hr.off_inj (by omega) (by omega)]
      omega
    have hbefore : off (width 12 pre + 12 + n) ≠ h.heapEnd := by
      rw [hr.heapEnd_eq, ne_eq, hr.off_inj (by omega) (by omega)]
      omega
    have hlow : h.lfree ≠ off (width 12 pre + 12 + n) := by
      rw [firstFree_append_free (by decide)] at hlfree
      have hle := (firstFree_bounds (h := 12) (p := 0) (l := pre)).2
      intro heq
      rw [heq, hr.toNat_off (by omega)] at hlfree
      omega
    refine ⟨n + 12 + m, rest, ?_, hpost.resize_head _⟩
    rw [if_pos ⟨hne, hused, hbefore⟩]
    simp only [if_neg hlow]
    exact hl.plug rfl rfl
  · have hlb : Linked h ((pre ++ [⟨n, false⟩]) ++ ⟨m, true⟩ :: rest) := by
      rw [List.append_assoc]
      exact hl
    have hstart : width 12 (pre ++ [⟨n, false⟩]) = width 12 pre + 12 + n := by
      simp only [width_append, width_cons, width_nil]
      omega
    have hused : (h.mem (off (width 12 pre + 12 + n))).used ≠ 0 := by
      rw [← hstart, ne_eq, hlb.used_at]
      simp
    refine ⟨n, ⟨m, true⟩ :: rest, ?_, ?_⟩
    · rw [if_neg fun hcond => hused hcond.2.1]
      exact .refl hl
    · exact List.isChain_cons_cons.mpr ⟨.inr rfl, hpost⟩

theorem Linked.plugBackward {n : ℕ} (hl : Linked h (pre ++ ⟨n, false⟩ :: post))
    (hpre : NoFreePair pre) (hpost : NoFreePair (⟨n, false⟩ :: post))
    (hlfree : h.lfree.toNat = firstFree 12 0 (pre ++ ⟨n, false⟩ :: post)) :
    ∃ l, Plugged h (plugBackward h (off (width 12 pre))) (pre ++ ⟨n, false⟩ :: post) l ∧
      NoFreePair l := by
  have hr := hl.region
  have hat := hl.mem_at
  have hend := hl.lt_end
  dsimp only at hat hend
  have hprev : (h.mem (off (width 12 pre))).prev = off (lastFrom 12 0 0 pre) :=
    congrArg HeapMem.prev hat
  unfold LowPower.plugBackward
  rw [hprev]
  rcases List.eq_nil_or_concat' pre with rfl | ⟨init, ⟨k, u⟩, rfl⟩
  · -- the first block has itself before it
    refine ⟨_, ?_, hpost⟩
    rw [if_neg fun hcond => hcond.1 rfl]
    exact .refl hl
  · rw [List.append_assoc] at hl hlfree ⊢
    have hstart : width 12 (init ++ [⟨k, u⟩]) = width 12 init + 12 + k := by
      simp only [width_append, width_cons, width_nil]
      omega
    have hlast : lastFrom 12 0 0 (init ++ [⟨k, u⟩]) = width 12 init := by
      rw [lastFrom_append_cons, Nat.zero_add]
      rfl
    rw [hstart] at hend ⊢
    rw [hlast]
    have hused : (h.mem (off (width 12 init))).used = 0 ↔ u = false := hl.used_at
    cases u with
    | true =>
      refine ⟨init ++ ⟨k, true⟩ :: ⟨n, false⟩ :: post, ?_,
        noFreePair_used.mpr ⟨(noFreePair_used.mp hpre).1, hpost⟩⟩
      have hne : (h.mem (off (width 12 init))).used ≠ 0 := mt hused.mp (by decide)
      rw [if_neg fun hcond => hne hcond.2]
      exact .refl hl
    | false =>
      have hne : off (width 12 init) ≠ off (width 12 init + 12 + k) := by
        rw [ne_eq, hr.off_inj (by omega) (by omega)]
        omega
      have hlow : h.lfree ≠ off (width 12 init + 12 + k) := by
        rw [List.singleton_append, firstFree_append_free (by decide)] at hlfree
        have hle := (firstFree_bounds (h := 12) (p := 0) (l := init)).2
        intro heq
        rw [heq, hr.toNat_off (by omega)] at hlfree
        omega
      refine ⟨init ++ ⟨k + 12 + n, false⟩ :: post, ?_, ?_⟩
      · rw [if_pos ⟨hne, hused.mpr rfl⟩]
        simp only [if_neg hlow]
        exact hl.plug rfl rfl
      · exact noFreePair_append.mpr ⟨hpre.resize _, hpost.resize_head _⟩

/-- **`plug_holes` joins the free neighbours** of a block that is free. -/
theorem Linked.plugHoles {n : ℕ} (hl : Linked h (pre ++ ⟨n, false⟩ :: post))
    (hpre : NoFreePair pre) (hpost : NoFreePair post)
    (hlfree : h.lfree.toNat = firstFree 12 0 (pre ++ ⟨n, false⟩ :: post)) :
    ∃ h' l, h.plugHoles (off (width 12 pre)) = some h' ∧
      Plugged h h' (pre ++ ⟨n, false⟩ :: post) l ∧ NoFreePair l := by
  have hr := hl.region
  have hend := hl.lt_end
  dsimp only at hend
  have hused : (h.mem (off (width 12 pre))).used = 0 := hl.used_at.mpr rfl
  have hbefore : off (width 12 pre) < h.heapEnd := by
    rw [hr.heapEnd_eq, BitVec.lt_def, hr.toNat_off (by omega), hr.toNat_off (by omega)]
    omega
  obtain ⟨m, rest, hforward, hpairs⟩ := hl.plugForward hpost hlfree
  obtain ⟨l, hbackward, hpairs'⟩ := hforward.linked.plugBackward hpre hpairs
    (by rw [hforward.lfree, hlfree, hforward.first])
  exact ⟨_, l, plugHoles_eq hbefore hused, hforward.trans hbackward, hpairs'⟩

/-! ## The state of the heap -/

/-- The heap between two calls: its blocks, no two free neighbours, and the counters. -/
structure Laid (h : Heap) (l : List Block) : Prop extends Linked h l where
  pairs : NoFreePair l
  lfree : h.lfree.toNat = firstFree 12 0 l
  usedMem : h.usedMem.toNat = usedWidth 12 l
  maxMem : usedWidth 12 l ≤ h.maxMem.toNat ∧ h.maxMem.toNat ≤ h.memSizeAligned.toNat + 12

theorem Linked.of_same (hl : Linked h l) (hptr : h'.heapPtr = h.heapPtr)
    (hsize : h'.memSizeAligned = h.memSizeAligned) (hram : h'.ram = h.ram) : Linked h' l := by
  have hmem : ∀ ptr, h'.mem ptr = h.mem ptr := fun ptr => mem_congr hptr fun x _ _ => by rw [hram]
  refine ⟨hl.region.congr hptr hsize, ?_, ?_, hl.sizes, ?_⟩
  · rw [hsize]
    exact hl.tiles
  · exact chain_frame hl.chain fun q _ _ => hmem (off q)
  · rw [Heap.heapEnd, hsize, hmem]
    exact hl.heap_end

/-- A payload begins behind its header, at an aligned address. -/
theorem Linked.payload {b : Block} (hl : Linked h (pre ++ b :: post)) {rmem : U32}
    (hrmem : rmem.toNat = h.heapPtr.toNat + width 12 pre + 12) :
    4 ∣ rmem.toNat ∧ ¬rmem < h.heapPtr ∧ ¬h.heapPtr + h.heapEnd ≤ rmem ∧
      rmem - sizeofStructMem - h.heapPtr = off (width 12 pre) := by
  have hr := hl.region
  have hfits := hr.fits
  have hend := hl.lt_end
  have hsize := (hl.sizes b (List.mem_append_right pre List.mem_cons_self)).2
  have hlast : (h.heapPtr + h.heapEnd).toNat = h.heapPtr.toNat + h.memSizeAligned.toNat + 12 := by
    rw [BitVec.toNat_add, hr.heapEnd_eq, hr.toNat_off (by omega), Nat.mod_eq_of_lt (by omega)]
    omega
  refine ⟨?_, ?_, ?_, ?_⟩
  · have hbase := hr.dvd_base
    have hwidth : 4 ∣ width 12 pre :=
      dvd_width (by decide) fun c hc => (hl.sizes c (List.mem_append_left _ hc)).1
    omega
  · rw [BitVec.lt_def]
    omega
  · rw [BitVec.le_def, hlast]
    omega
  · have htwelve : (sizeofStructMem : U32).toNat = 12 := rfl
    rw [← BitVec.toNat_inj, hr.toNat_off (by omega), BitVec.toNat_sub_of_le, BitVec.toNat_sub_of_le]
    · omega
    · rw [BitVec.le_def]
      omega
    · rw [BitVec.le_def, BitVec.toNat_sub_of_le]
      · omega
      · rw [BitVec.le_def]
        omega

/-- The bytes of a block with its header. -/
theorem Linked.next_sub {b : Block} (hl : Linked h (pre ++ b :: post)) :
    ((h.mem (off (width 12 pre))).next - off (width 12 pre)).toNat = 12 + b.size := by
  have hr := hl.region
  have hend := hl.lt_end
  rw [congrArg HeapMem.next hl.mem_at, BitVec.toNat_sub_of_le]
  · rw [hr.toNat_off (by omega), hr.toNat_off (by omega)]
    omega
  · rw [BitVec.le_def, hr.toNat_off (by omega), hr.toNat_off (by omega)]
    omega

/-! ## Freeing -/

/-- `if (mem < lfree) lfree = mem`. -/
def lowerFree (h : Heap) (mem : U32) : Heap := if mem < h.lfree then { h with lfree := mem } else h

/-- The lowest free block, with one more. -/
theorem Linked.lowerFree {n : ℕ} (hl : Linked h (pre ++ ⟨n, false⟩ :: post))
    (hlfree : firstFree 12 0 pre < width 12 pre ∧ h.lfree.toNat = firstFree 12 0 pre ∨
      firstFree 12 0 pre = width 12 pre ∧ width 12 pre < h.lfree.toNat) :
    Linked (lowerFree h (off (width 12 pre))) (pre ++ ⟨n, false⟩ :: post) ∧
      (lowerFree h (off (width 12 pre))).lfree.toNat =
        firstFree 12 0 (pre ++ ⟨n, false⟩ :: post) := by
  have hr := hl.region
  have hend := hl.lt_end
  rw [firstFree_append_free (by decide)]
  have hlt : off (width 12 pre) < h.lfree ↔ width 12 pre < h.lfree.toNat := by
    rw [BitVec.lt_def, hr.toNat_off (by omega)]
  unfold LowPower.lowerFree
  split
  · rename_i hlow
    rw [hlt] at hlow
    refine ⟨hl.of_same rfl rfl rfl, ?_⟩
    change (off (width 12 pre)).toNat = _
    rw [hr.toNat_off (by omega)]
    omega
  · rename_i hlow
    rw [hlt] at hlow
    exact ⟨hl, by omega⟩

theorem lowerFree_same (h : Heap) (mem : U32) : (lowerFree h mem).usedMem = h.usedMem ∧
    (lowerFree h mem).maxMem = h.maxMem ∧ Keeps h (lowerFree h mem) (usedFrom 12 0 l) := by
  unfold lowerFree
  split <;> exact ⟨rfl, rfl, rfl, rfl, fun _ _ _ _ _ => rfl, fun _ _ => rfl⟩

/-- The lowest free block lies before a block in use or behind it. -/
theorem Laid.lfree_cases {n : ℕ} (hl : Laid h (pre ++ ⟨n, true⟩ :: post)) :
    firstFree 12 0 pre < width 12 pre ∧ h.lfree.toNat = firstFree 12 0 pre ∨
      firstFree 12 0 pre = width 12 pre ∧ width 12 pre + 12 + n ≤ h.lfree.toNat := by
  have hbounds := firstFree_bounds (h := 12) (p := 0) (l := pre)
  have hbehind := firstFree_bounds (h := 12) (p := width 12 pre + 12 + n) (l := post)
  have hlfree := hl.lfree
  rw [firstFree_append (by decide), Nat.zero_add] at hlfree
  split at hlfree
  · rename_i hlow
    exact .inl ⟨hlow, hlfree⟩
  · change h.lfree.toNat = firstFree 12 (width 12 pre + 12 + n) post at hlfree
    exact .inr ⟨by omega, by omega⟩

/-- **A free** takes the block out of those in use, and joins it with its free neighbours. -/
theorem Laid.free {n : ℕ} (hl : Laid h (pre ++ ⟨n, true⟩ :: post)) {rmem : U32}
    (hrmem : rmem.toNat = h.heapPtr.toNat + width 12 pre + 12) :
    ∃ h' l, h.rtFree rmem = some h' ∧ Laid h' l ∧ h'.maxMem = h.maxMem ∧
      usedFrom 12 0 l = usedFrom 12 0 pre ++ usedFrom 12 (width 12 pre + 12 + n) post ∧
      Keeps h h' (usedFrom 12 0 l) := by
  have hr := hl.region
  have hend := hl.lt_end
  obtain ⟨hdvd, hlow, hhigh, hmem⟩ := hl.payload hrmem
  have hne : rmem ≠ 0 := by
    intro heq
    rw [heq] at hrmem
    have hzero : (0 : U32).toNat = 0 := rfl
    omega
  have hin : ¬(rmem &&& (rtAlignSize - 1) ≠ 0 ∨ rmem < h.heapPtr ∨ h.heapPtr + h.heapEnd ≤ rmem) := by
    rintro (hodd | hout | hout)
    · exact hodd (and_three_eq_zero.mpr hdvd)
    · exact hlow hout
    · exact hhigh hout
  have hused : ¬((h.mem (off (width 12 pre))).used = 0 ∨
      (h.mem (off (width 12 pre))).magic ≠ heapMagic) := by
    rintro (hfree | hmagic)
    · exact absurd (hl.used_at.mp hfree) (by simp)
    · exact hmagic (congrArg HeapMem.magic hl.mem_at)
  -- the block is marked free
  obtain ⟨h₁, hh₁⟩ : ∃ h₁, h₁ = (h.setUsed (off (width 12 pre)) 0).setMagic (off (width 12 pre))
    heapMagic := ⟨_, rfl⟩
  have hw := (setUsed_writes h (off (width 12 pre)) 0).again
    (setMagic_writes _ (off (width 12 pre)) heapMagic)
  rw [hr.addr_off (by omega), ← hh₁] at hw
  have hl₁ : Linked h₁ (pre ++ ⟨n, false⟩ :: post) := by
    refine hl.setBlock hw ?_
    rw [hh₁, mem_setMagic, mem_setUsed, hl.mem_at]
    rfl
  have hkeeps₁ : Keeps h h₁ (usedFrom 12 0 (pre ++ ⟨n, false⟩ :: post)) := by
    refine hw.keeps (hw.memSize ▸ hl₁.tiles) fun a ha => ?_
    obtain rfl := List.mem_singleton.mp ha
    exact ⟨pre, _, rfl, rfl⟩
  -- it may be the lowest one
  have hlfree₁ : h₁.lfree = h.lfree := by rw [hh₁, setMagic_lfree, setUsed_lfree]
  have hcases := hl.lfree_cases
  obtain ⟨hl₂, hlfree₂⟩ := hl₁.lowerFree (by rw [hlfree₁]; omega)
  obtain ⟨husedMem₂, hmaxMem₂, hkeeps₂⟩ := lowerFree_same (l := pre ++ ⟨n, false⟩ :: post) h₁
    (off (width 12 pre))
  obtain ⟨h₂, hh₂⟩ : ∃ h₂, h₂ = lowerFree h₁ (off (width 12 pre)) := ⟨_, rfl⟩
  rw [← hh₂] at hl₂ hlfree₂ husedMem₂ hmaxMem₂ hkeeps₂
  -- it is counted off and joined
  obtain ⟨h₃, hh₃⟩ : ∃ h₃ : Heap, h₃ = { h₂ with usedMem := h₂.usedMem -
    ((h₂.mem (off (width 12 pre))).next - off (width 12 pre)) } := ⟨_, rfl⟩
  have hl₃ : Linked h₃ (pre ++ ⟨n, false⟩ :: post) :=
    hl₂.of_same (by rw [hh₃]) (by rw [hh₃]) (by rw [hh₃])
  have hpairs := noFreePair_used.mp hl.pairs
  obtain ⟨h', l, hplug, hplugged, hpairs'⟩ := hl₃.plugHoles hpairs.1 hpairs.2
    (by rw [hh₃]; exact hlfree₂)
  have huse : usedFrom 12 0 l =
      usedFrom 12 0 pre ++ usedFrom 12 (width 12 pre + 12 + n) post := by
    rw [hplugged.used, usedFrom_append, usedFrom_cons_free, Nat.zero_add]
  have hmax : h'.maxMem = h.maxMem := by
    rw [hplugged.maxMem, hh₃]
    change h₂.maxMem = h.maxMem
    rw [hmaxMem₂, hh₁, setMagic_maxMem, setUsed_maxMem]
  have hcount : usedWidth 12 l + (12 + n) = usedWidth 12 (pre ++ ⟨n, true⟩ :: post) := by
    have hwidth : usedWidth 12 l = usedWidth 12 (pre ++ ⟨n, false⟩ :: post) :=
      usedWidth_congr hplugged.used
    rw [hwidth, usedWidth_append, usedWidth_append]
    simp only [usedWidth, if_true, Bool.false_eq_true, if_false]
    omega
  have hkeeps₃ : Keeps h₂ h₃ (usedFrom 12 0 (pre ++ ⟨n, false⟩ :: post)) := by
    rw [hh₃]
    exact ⟨rfl, rfl, fun _ _ _ _ _ => rfl, fun _ _ => rfl⟩
  have hkeeps := ((hkeeps₁.trans hkeeps₂).trans hkeeps₃).trans hplugged.keeps
  have hsize := hkeeps.memSize
  refine ⟨h', l, ?_, ⟨hplugged.linked, hpairs', ?_, ?_, ?_⟩, hmax, huse, ?_⟩
  · unfold Heap.rtFree
    rw [if_neg hne, if_neg hin]
    simp only [hmem]
    rw [if_neg hused, ← hh₁]
    rw [← hplug, hh₃, hh₂]
    rfl
  · rw [hplugged.lfree, hplugged.first, hh₃]
    exact hlfree₂
  · have hsub := hl₂.next_sub
    dsimp only at hsub
    have hsame : h₂.usedMem = h.usedMem := by
      rw [husedMem₂, hh₁, setMagic_usedMem, setUsed_usedMem]
    have hbefore := hl.usedMem
    rw [hplugged.usedMem, hh₃]
    change (h₂.usedMem - _).toNat = _
    rw [hsame, BitVec.toNat_sub_of_le, hsub]
    · omega
    · rw [BitVec.le_def, hsub]
      omega
  · have hbefore := hl.maxMem
    rw [hmax, hsize]
    omega
  · rw [hplugged.used]
    exact hkeeps

/-! ## Taking a block -/

theorem toNat_add_twelve {x : U32} (hfits : x.toNat + 12 < 2 ^ 32) :
    (x + sizeofStructMem).toNat = x.toNat + 12 := by
  rw [BitVec.toNat_add]
  exact Nat.mod_eq_of_lt hfits

/-- The bytes of a block without its header. -/
theorem Linked.room {b : Block} (hl : Linked h (pre ++ b :: post)) :
    ((h.mem (off (width 12 pre))).next - (off (width 12 pre) + sizeofStructMem)).toNat = b.size := by
  have hr := hl.region
  have hfits := hr.fits
  have hend := hl.lt_end
  have hstart := hr.toNat_off (p := width 12 pre) (by omega)
  have hdata : (off (width 12 pre) + sizeofStructMem).toNat = width 12 pre + 12 := by
    rw [toNat_add_twelve (by omega), hstart]
  have hnext := congrArg HeapMem.next hl.mem_at
  rw [hnext, BitVec.toNat_sub_of_le]
  · rw [hdata, hr.toNat_off (by omega)]
    omega
  · rw [BitVec.le_def, hdata, hr.toNat_off (by omega)]
    omega

/-- **The search of `rt_malloc` finds the first fit.** -/
theorem Linked.search {l₁ l₂ : List Block} (hl : Linked h (l₁ ++ l₂)) {size : U32}
    (hsize : size.toNat ≤ h.memSizeAligned.toNat) :
    Returns (fun fuel => h.search size fuel (off (width 12 l₁)))
      ((firstFit 12 size.toNat h.memSizeAligned.toNat (width 12 l₁) l₂).map off) := by
  have hr := hl.region
  have htiles := hl.tiles
  have hlimit : (h.memSizeAligned - size).toNat = h.memSizeAligned.toNat - size.toNat :=
    BitVec.toNat_sub_of_le (BitVec.le_def.mpr hsize)
  have hlt : ∀ p ≤ h.memSizeAligned.toNat + 12,
      off p < h.memSizeAligned - size ↔ p + size.toNat < h.memSizeAligned.toNat := by
    intro p hp
    rw [BitVec.lt_def, hr.toNat_off (by omega), hlimit]
    omega
  -- one round for each block from here on
  induction l₂ generalizing l₁ with
  | nil =>
    rw [List.append_nil] at htiles
    refine Returns.of_succ (fun fuel => ?_) (Returns.of_eq fun _ => rfl)
    rw [Heap.search, if_neg]
    · rfl
    · rw [hlt _ (by omega)]
      omega
  | cons b l₂ ih =>
    have hend := hl.lt_end
    have hused := hl.used_at
    have hroom := hl.room
    have hnext := congrArg HeapMem.next hl.mem_at
    dsimp only at hnext
    by_cases hlow : width 12 l₁ + size.toNat < h.memSizeAligned.toNat
    · have hcond := (hlt _ (by omega)).mpr hlow
      rw [firstFit]
      by_cases hfit : b.used = false ∧ size.toNat ≤ b.size
      · rw [if_pos ⟨hfit.1, hfit.2, hlow⟩]
        refine Returns.of_succ (fun fuel => ?_) (Returns.of_eq fun _ => rfl)
        rw [Heap.search, if_pos hcond]
        exact if_pos ⟨hused.mpr hfit.1, BitVec.le_def.mpr (hroom.symm ▸ hfit.2)⟩
      · have hassoc : width 12 (l₁ ++ [b]) = width 12 l₁ + 12 + b.size := by
          simp only [width_append, width_cons, width_nil]
          omega
        rw [← List.singleton_append, ← List.append_assoc] at hl htiles
        have hrest := ih hl htiles
        rw [hassoc] at hrest
        rw [if_neg fun hcond => hfit ⟨hcond.1, hcond.2.1⟩]
        refine Returns.of_succ (fun fuel => ?_) hrest
        rw [Heap.search, if_pos hcond]
        dsimp only
        rw [if_neg, hnext]
        rintro ⟨hzero, hle⟩
        rw [BitVec.le_def, hroom] at hle
        exact hfit ⟨hused.mp hzero, hle⟩
    · rw [firstFit_of_limit (by omega)]
      refine Returns.of_succ (fun fuel => ?_) (Returns.of_eq fun _ => rfl)
      rw [Heap.search, if_neg]
      · rfl
      · rw [hlt _ (by omega)]
        exact hlow

/-- **The next free block** from a block on. -/
theorem Linked.nextFree {l₁ l₂ : List Block} (hl : Linked h (l₁ ++ l₂)) :
    Returns (fun fuel => h.nextFree fuel (off (width 12 l₁))) (off (firstFree 12 (width 12 l₁) l₂)) := by
  have hr := hl.region
  have htiles := hl.tiles
  induction l₂ generalizing l₁ with
  | nil =>
    rw [List.append_nil] at htiles
    refine Returns.of_succ (fun fuel => ?_) (Returns.of_eq fun _ => rfl)
    rw [Heap.nextFree, if_neg]
    · rfl
    · rw [htiles, ← hr.heapEnd_eq]
      exact fun hcond => hcond.2 rfl
  | cons b l₂ ih =>
    have hend := hl.lt_end
    have hused := hl.used_at
    have hnext := congrArg HeapMem.next hl.mem_at
    dsimp only at hnext
    rw [firstFree]
    split
    · rename_i huse
      have hassoc : width 12 (l₁ ++ [b]) = width 12 l₁ + 12 + b.size := by
        simp only [width_append, width_cons, width_nil]
        omega
      rw [← List.singleton_append, ← List.append_assoc] at hl htiles
      have hrest := ih hl htiles
      rw [hassoc] at hrest
      refine Returns.of_succ (fun fuel => ?_) hrest
      rw [Heap.nextFree, if_pos, hnext]
      refine ⟨?_, ?_⟩
      · rw [ne_eq, hused, huse]
        simp
      · rw [hr.heapEnd_eq, ne_eq, hr.off_inj (by omega) (by omega)]
        omega
    · rename_i hfree
      refine Returns.of_succ (fun fuel => ?_) (Returns.of_eq fun _ => rfl)
      rw [Heap.nextFree, if_neg]
      exact fun hcond => hcond.1 (hused.mpr (Bool.eq_false_iff.mpr hfree))

/-- `mem->used = 1` with the counters and the magic number. -/
def markUsed (h : Heap) (ptr count : U32) : Heap :=
  ((h.setUsed ptr 1).countUsed count).setMagic ptr heapMagic

theorem Linked.markUsed {n : ℕ} (hl : Linked h (pre ++ ⟨n, false⟩ :: post)) (count : U32) :
    Linked (markUsed h (off (width 12 pre)) count) (pre ++ ⟨n, true⟩ :: post) ∧
      Writes h (markUsed h (off (width 12 pre)) count)
        ([width 12 pre].map (h.heapPtr.toNat + ·)) := by
  have hr := hl.region
  have hend := hl.lt_end
  have hw : Writes h (LowPower.markUsed h (off (width 12 pre)) count)
      [h.addr (off (width 12 pre))] := by
    have hset := setUsed_writes h (off (width 12 pre)) 1
    have hcount : Writes h ((h.setUsed (off (width 12 pre)) 1).countUsed count)
        [h.addr (off (width 12 pre))] := ⟨hset.heapPtr, hset.memSize, hset.ram⟩
    exact hcount.again (setMagic_writes _ (off (width 12 pre)) heapMagic)
  rw [hr.addr_off (by omega)] at hw
  refine ⟨hl.setBlock hw ?_, hw⟩
  have hused : ((h.setUsed (off (width 12 pre)) 1).countUsed count).mem (off (width 12 pre)) =
      { h.mem (off (width 12 pre)) with used := 1 } := mem_setUsed h (off (width 12 pre)) 1
  rw [LowPower.markUsed, mem_setMagic, hused, hl.mem_at]
  rfl

theorem markUsed_counts (h : Heap) (ptr count : U32)
    (hfits : h.usedMem.toNat + count.toNat < 2 ^ 32) :
    (markUsed h ptr count).lfree = h.lfree ∧
      (markUsed h ptr count).usedMem.toNat = h.usedMem.toNat + count.toNat ∧
      (markUsed h ptr count).maxMem.toNat = max h.maxMem.toNat (h.usedMem.toNat + count.toNat) := by
  have hsum : (h.usedMem + count).toNat = h.usedMem.toNat + count.toNat := by
    rw [BitVec.toNat_add, Nat.mod_eq_of_lt hfits]
  refine ⟨rfl, hsum, ?_⟩
  change (if h.maxMem < h.usedMem + count then h.usedMem + count else h.maxMem).toNat = _
  split
  · rename_i hlt
    rw [BitVec.lt_def, hsum] at hlt
    rw [hsum]
    omega
  · rename_i hlt
    rw [BitVec.lt_def, hsum] at hlt
    omega

/-- **A free block is taken**, whole or without what is cut off behind it. -/
theorem Laid.take {n : ℕ} (hl : Laid h (pre ++ ⟨n, false⟩ :: post)) {size : U32}
    (hdvd : 4 ∣ size.toNat) (hmin : 12 ≤ size.toNat) (hsize : size.toNat ≤ n) :
    ∃ m rest, size.toNat ≤ m ∧ Linked (h.take size (off (width 12 pre))) (pre ++ ⟨m, true⟩ :: rest) ∧
      NoFreePair (pre ++ ⟨m, true⟩ :: rest) ∧
      usedFrom 12 (width 12 pre + 12 + m) rest = usedFrom 12 (width 12 pre + 12 + n) post ∧
      (h.take size (off (width 12 pre))).lfree = h.lfree ∧
      (h.take size (off (width 12 pre))).usedMem.toNat = h.usedMem.toNat + (12 + m) ∧
      (h.take size (off (width 12 pre))).maxMem.toNat =
        max h.maxMem.toNat (h.usedMem.toNat + (12 + m)) ∧
      Keeps h (h.take size (off (width 12 pre))) (usedFrom 12 0 (pre ++ ⟨m, true⟩ :: rest)) := by
  have hr := hl.region
  have hfits := hr.fits
  have hend := hl.lt_end
  dsimp only at hend
  have husedMem := hl.usedMem
  have hle : usedWidth 12 (pre ++ ⟨n, false⟩ :: post) + (12 + n) ≤ h.memSizeAligned.toNat + 12 := by
    have hpre := usedWidth_le (h := 12) (l := pre)
    have hpost := usedWidth_le (h := 12) (l := post)
    rw [← hl.tiles]
    simp only [usedWidth_append, usedWidth, width_append, width_cons, Bool.false_eq_true, if_false]
    omega
  have hpairs := noFreePair_append.mp hl.pairs
  have hpre : NoFreePair pre := hpairs.1.left_of_append
  have hroom := hl.room
  dsimp only at hroom
  have hsplit : size + sizeofStructMem + minSizeAligned ≤
      (h.mem (off (width 12 pre))).next - (off (width 12 pre) + sizeofStructMem) ↔
        size.toNat + 24 ≤ n := by
    have hinner := toNat_add_twelve (x := size) (by omega)
    have houter : (size + sizeofStructMem + minSizeAligned).toNat =
        (size + sizeofStructMem).toNat + 12 := toNat_add_twelve (by omega)
    rw [BitVec.le_def, hroom]
    omega
  have hkeep : ∀ {h'' : Heap} {as : List ℕ} {m : ℕ} {rest : List Block},
      Writes h h'' (as.map (h.heapPtr.toNat + ·)) → Linked h'' (pre ++ ⟨m, true⟩ :: rest) →
      (∀ a ∈ as, ∃ l₁ l₂, pre ++ ⟨m, true⟩ :: rest = l₁ ++ l₂ ∧ a = width 12 l₁) →
      Keeps h h'' (usedFrom 12 0 (pre ++ ⟨m, true⟩ :: rest)) := by
    intro h'' as m rest hw hlinked hcuts
    refine hw.keeps (hw.memSize ▸ hlinked.tiles) fun a ha => ?_
    obtain ⟨q, hq, rfl⟩ := List.mem_map.mp ha
    obtain ⟨l₁, l₂, heq, rfl⟩ := hcuts q hq
    exact ⟨l₁, l₂, heq, rfl⟩
  by_cases hlarge : size.toNat + 24 ≤ n
  · -- the rest is a block of its own
    have hstart := hr.toNat_off (p := width 12 pre) (by omega)
    have hdata := toNat_add_twelve (x := off (width 12 pre)) (by omega)
    have hcount := toNat_add_twelve (x := size) (by omega)
    have hp₂ : off (width 12 pre) + sizeofStructMem + size = off (width 12 pre + 12 + size.toNat) := by
      rw [← BitVec.toNat_inj, BitVec.toNat_add, hdata, hstart, hr.toNat_off (by omega),
        Nat.mod_eq_of_lt (by omega)]
    obtain ⟨hcut, hw⟩ := hl.split (r := n - size.toNat - 12) rfl rfl (by omega) ⟨hdvd, by omega⟩
      (by omega)
    obtain ⟨hmark, hw'⟩ := hcut.markUsed (size + sizeofStructMem)
    have htake : h.take size (off (width 12 pre)) =
        LowPower.markUsed (h.insertMem2 (off (width 12 pre)) (off (width 12 pre + 12 + size.toNat)))
          (off (width 12 pre)) (size + sizeofStructMem) := by
      unfold Heap.take
      simp only [if_pos (hsplit.mpr hlarge), hp₂]
      rfl
    have hcounts := markUsed_counts (h.insertMem2 (off (width 12 pre))
      (off (width 12 pre + 12 + size.toNat))) (off (width 12 pre)) (size + sizeofStructMem)
      (by rw [insertMem2_usedMem]; omega)
    rw [insertMem2_lfree, insertMem2_usedMem, insertMem2_maxMem, hcount, Nat.add_comm size.toNat,
      ← htake] at hcounts
    rw [← htake] at hmark hw'
    have hrest : NoFreePair (⟨n - size.toNat - 12, false⟩ :: post) := hpairs.2.resize_head _
    refine ⟨size.toNat, _, Nat.le_refl _, hmark, noFreePair_used.mpr ⟨hpre, hrest⟩, ?_, hcounts.1,
      hcounts.2.1, hcounts.2.2, ?_⟩
    · have hpos : width 12 pre + 12 + size.toNat + 12 + (n - size.toNat - 12) =
          width 12 pre + 12 + n := by omega
      rw [usedFrom_cons_free, hpos]
    · rw [hw.heapPtr] at hw'
      have hwrites := hw.trans hw'
      rw [← List.map_append] at hwrites
      refine hkeep hwrites hmark fun a ha => ?_
      simp only [List.cons_append, List.nil_append, List.mem_cons, List.not_mem_nil, or_false] at ha
      have hcut₂ : width 12 pre + 12 + size.toNat =
          width 12 (pre ++ [⟨size.toNat, true⟩]) := by
        simp only [width_append, width_cons, width_nil]
        omega
      have hcut₃ : width 12 pre + 12 + n =
          width 12 (pre ++ [⟨size.toNat, true⟩, ⟨n - size.toNat - 12, false⟩]) := by
        simp only [width_append, width_cons, width_nil]
        omega
      rcases ha with rfl | rfl | rfl | rfl
      · exact ⟨_, _, (List.append_assoc pre [_] _).symm, hcut₂⟩
      · exact ⟨pre, _, rfl, rfl⟩
      · exact ⟨_, _, (List.append_assoc pre [_, _] _).symm, hcut₃⟩
      · exact ⟨pre, _, rfl, rfl⟩
  · obtain ⟨hmark, hw⟩ := hl.markUsed ((h.mem (off (width 12 pre))).next - off (width 12 pre))
    have hnext := hl.next_sub
    dsimp only at hnext
    have htake : h.take size (off (width 12 pre)) = LowPower.markUsed h (off (width 12 pre))
        ((h.mem (off (width 12 pre))).next - off (width 12 pre)) := by
      unfold Heap.take
      simp only [if_neg (mt hsplit.mp hlarge), mem_setUsed]
      rfl
    have hcounts := markUsed_counts h (off (width 12 pre))
      ((h.mem (off (width 12 pre))).next - off (width 12 pre)) (by omega)
    rw [hnext, ← htake] at hcounts
    rw [← htake] at hmark hw
    have hpost : NoFreePair post := hpairs.2.tail
    refine ⟨n, post, hsize, hmark, noFreePair_used.mpr ⟨hpre, hpost⟩, rfl, hcounts.1, hcounts.2.1,
      hcounts.2.2, hkeep hw hmark fun a ha => ?_⟩
    obtain rfl := List.mem_singleton.mp ha
    exact ⟨pre, _, rfl, rfl⟩

/-! ## Allocating -/

/-- The lowest free block, if it is one. -/
theorem Linked.firstFree_ok (hl : Linked h l) :
    off (firstFree 12 0 l) = h.heapEnd ∨ (h.mem (off (firstFree 12 0 l))).used = 0 := by
  have hr := hl.region
  have htiles := hl.tiles
  obtain ⟨l₁, l₂, rfl, heq, -, hhead⟩ := exists_firstFree 12 0 l
  rw [heq, Nat.zero_add]
  cases l₂ with
  | nil =>
    rw [List.append_nil] at htiles
    rw [hr.heapEnd_eq, htiles]
    exact .inl rfl
  | cons b l₂ => exact .inr (hl.used_at.mpr (hhead b rfl))

/-- `lfree` after a block is taken. -/
theorem Linked.lfree_taken {n m : ℕ} {rest : List Block}
    (hl : Linked h (pre ++ ⟨m, true⟩ :: rest))
    (hlfree : h.lfree.toNat = firstFree 12 0 (pre ++ ⟨n, false⟩ :: post)) :
    Returns (fun fuel => if off (width 12 pre) = h.lfree then h.nextFree fuel h.lfree
      else some h.lfree) (off (firstFree 12 0 (pre ++ ⟨m, true⟩ :: rest))) := by
  have hr := hl.region
  have hend := hl.lt_end
  dsimp only at hend
  have hbounds := firstFree_bounds (h := 12) (p := 0) (l := pre)
  rw [firstFree_append_free (by decide)] at hlfree
  have heq : off (width 12 pre) = h.lfree ↔ firstFree 12 0 pre = width 12 pre := by
    rw [← BitVec.toNat_inj, hr.toNat_off (by omega), hlfree]
    exact eq_comm
  rw [firstFree_append (by decide), Nat.zero_add]
  by_cases hlow : firstFree 12 0 pre = width 12 pre
  · simp only [← heq.mpr hlow]
    rw [if_neg (by omega)]
    exact hl.nextFree
  · simp only [if_neg (mt heq.mp hlow)]
    rw [if_pos (by omega), ← hlfree, off_toNat]
    exact Returns.of_eq fun _ => rfl

/-- The last assertions of `rt_malloc`. -/
theorem Linked.malloc_ok {b : Block} (hl : Linked h (pre ++ b :: post)) {size : U32}
    (hsize : size.toNat ≤ b.size) :
    (h.heapPtr + off (width 12 pre) + sizeofStructMem + size ≤ h.heapPtr + h.heapEnd ∧
      (h.heapPtr + off (width 12 pre) + sizeofStructMem) % rtAlignSize = 0 ∧
        (h.heapPtr + off (width 12 pre)) &&& (rtAlignSize - 1) = 0) ∧
      (h.heapPtr + off (width 12 pre) + sizeofStructMem).toNat =
        h.heapPtr.toNat + width 12 pre + 12 := by
  have hr := hl.region
  have hfits := hr.fits
  have hend := hl.lt_end
  have hbase := hr.dvd_base
  have hwidth : 4 ∣ width 12 pre :=
    dvd_width (by decide) fun c hc => (hl.sizes c (List.mem_append_left _ hc)).1
  have hstart := hr.toNat_off (p := width 12 pre) (by omega)
  have hmem : (h.heapPtr + off (width 12 pre)).toNat = h.heapPtr.toNat + width 12 pre := by
    rw [BitVec.toNat_add, hstart, Nat.mod_eq_of_lt (by omega)]
  have hdata := toNat_add_twelve (x := h.heapPtr + off (width 12 pre)) (by omega)
  have hlast : (h.heapPtr + h.heapEnd).toNat = h.heapPtr.toNat + h.memSizeAligned.toNat + 12 := by
    rw [BitVec.toNat_add, hr.heapEnd_eq, hr.toNat_off (by omega), Nat.mod_eq_of_lt (by omega)]
    omega
  refine ⟨⟨?_, ?_, ?_⟩, by rw [hdata, hmem]⟩
  · rw [BitVec.le_def, BitVec.toNat_add, hdata, hmem, hlast, Nat.mod_eq_of_lt (by omega)]
    omega
  · have hfour : (rtAlignSize : U32).toNat = 4 := rfl
    rw [← BitVec.toNat_inj, BitVec.toNat_umod, hdata, hmem, hfour]
    exact Nat.mod_eq_zero_of_dvd (by omega)
  · rw [and_three_eq_zero, hmem]
    omega

/-- The end of `rt_malloc`, once a block is taken. -/
def grant (h : Heap) (size ptr : U32) (fuel : ℕ) : Option (U32 × Heap) :=
  (if ptr = h.lfree then h.nextFree fuel h.lfree else some h.lfree).bind fun lfree =>
    if ptr = h.lfree ∧ ¬(lfree = h.heapEnd ∨ (h.mem lfree).used = 0) then none
    else if h.heapPtr + ptr + sizeofStructMem + size ≤ h.heapPtr + h.heapEnd ∧
        (h.heapPtr + ptr + sizeofStructMem) % rtAlignSize = 0 ∧
          (h.heapPtr + ptr) &&& (rtAlignSize - 1) = 0 then
      some (h.heapPtr + ptr + sizeofStructMem, { h with lfree := lfree })
    else none

theorem Linked.grant {n m : ℕ} {rest : List Block} (hl : Linked h (pre ++ ⟨m, true⟩ :: rest))
    (hlfree : h.lfree.toNat = firstFree 12 0 (pre ++ ⟨n, false⟩ :: post)) {size : U32}
    (hsize : size.toNat ≤ m) :
    Returns (fun fuel => grant h size (off (width 12 pre)) fuel)
      (h.heapPtr + off (width 12 pre) + sizeofStructMem,
        { h with lfree := off (firstFree 12 0 (pre ++ ⟨m, true⟩ :: rest)) }) := by
  have hok := (hl.malloc_ok hsize).1
  refine (hl.lfree_taken hlfree).bind (Returns.of_eq fun fuel => ?_)
  rw [if_neg fun hcond => hcond.2 hl.firstFree_ok, if_pos hok]

/-- The size that is searched for. -/
def roundUp (size : U32) : U32 :=
  if rtAlign size < minSizeAligned then minSizeAligned else rtAlign size

theorem toNat_roundUp (size : U32) : (roundUp size).toNat = max 12 (rtAlign size).toNat := by
  have htwelve : (minSizeAligned : U32).toNat = 12 := rfl
  unfold roundUp
  split
  · rename_i hlow
    rw [BitVec.lt_def] at hlow
    omega
  · rename_i hlow
    rw [BitVec.lt_def] at hlow
    omega

theorem rtMalloc_eq {size : U32} (hne : size ≠ 0) (hsmall : ¬h.memSizeAligned < rtAlign size)
    (fuel : ℕ) : h.rtMalloc size fuel = (h.search (roundUp size) fuel h.lfree).bind fun found =>
      found.elim (some (0, h)) fun ptr =>
        grant (h.take (roundUp size) ptr) (roundUp size) ptr fuel := by
  have hneed : (if rtAlign size < minSizeAligned then minSizeAligned else rtAlign size) =
      roundUp size := rfl
  unfold Heap.rtMalloc
  rw [if_neg hne]
  dsimp only
  rw [if_neg hsmall, hneed]
  refine congrArg (Option.bind (h.search (roundUp size) fuel h.lfree)) (funext fun found => ?_)
  cases found with
  | none => rfl
  | some ptr =>
    dsimp only [Option.elim]
    generalize h.take (roundUp size) ptr = h₁
    rfl

/-- The block that `rt_malloc` takes. -/
def Heap.fit (h : Heap) (size : U32) (l : List Block) : Option ℕ :=
  if size = 0 ∨ h.memSizeAligned < rtAlign size then none
  else firstFit 12 (max 12 (rtAlign size).toNat) h.memSizeAligned.toNat 0 l

/-- The search from the lowest free block on is one over all blocks. -/
theorem Laid.search (hl : Laid h l) {size : U32} (hsmall : ¬h.memSizeAligned < rtAlign size) :
    Returns (fun fuel => h.search (roundUp size) fuel h.lfree)
      ((firstFit 12 (max 12 (rtAlign size).toNat) h.memSizeAligned.toNat 0 l).map off) := by
  have hroom := hl.region.room
  have hlfree := hl.lfree
  obtain ⟨l₁, l₂, rfl, heq, hused, -⟩ := exists_firstFree 12 0 l
  rw [BitVec.lt_def] at hsmall
  rw [heq, Nat.zero_add] at hlfree
  have hround : (roundUp size).toNat ≤ h.memSizeAligned.toNat := by
    rw [toNat_roundUp]
    omega
  have hsearch := hl.toLinked.search hround
  rw [← hlfree, off_toNat, hlfree, toNat_roundUp] at hsearch
  rw [firstFit_of_used hused, Nat.zero_add]
  exact hsearch

/-- **An allocation** takes the first fit, or returns a null pointer. -/
theorem Laid.malloc_none (hl : Laid h l) {size : U32} (hfit : h.fit size l = none) :
    Returns (fun fuel => h.rtMalloc size fuel) (0, h) := by
  unfold Heap.fit at hfit
  split at hfit
  · rename_i hnone
    refine Returns.of_eq fun fuel => ?_
    unfold Heap.rtMalloc
    rcases hnone with hzero | hlarge
    · rw [if_pos hzero]
    · split
      · rfl
      · exact if_pos hlarge
  · rename_i hsome
    rw [not_or] at hsome
    have hsearch := hl.search hsome.2
    rw [hfit] at hsearch
    simp only [rtMalloc_eq hsome.1 hsome.2]
    exact hsearch.bind (g := fun found fuel => found.elim (some (0, h)) fun ptr =>
      LowPower.grant (h.take (roundUp size) ptr) (roundUp size) ptr fuel) (Returns.of_eq fun _ => rfl)

theorem Laid.malloc_some (hl : Laid h l) {size : U32} {q : ℕ} (hfit : h.fit size l = some q) :
    ∃ p h' pre n post m rest, Returns (fun fuel => h.rtMalloc size fuel) (p, h') ∧
      p.toNat = h.heapPtr.toNat + q + 12 ∧ l = pre ++ ⟨n, false⟩ :: post ∧ q = width 12 pre ∧
      max 12 (rtAlign size).toNat ≤ m ∧ Laid h' (pre ++ ⟨m, true⟩ :: rest) ∧
      usedFrom 12 (q + 12 + m) rest = usedFrom 12 (q + 12 + n) post ∧
      h'.maxMem.toNat = max h.maxMem.toNat h'.usedMem.toNat ∧
      Keeps h h' (usedFrom 12 0 (pre ++ ⟨m, true⟩ :: rest)) ∧
      max 12 (rtAlign size).toNat ≤ n ∧ q + max 12 (rtAlign size).toNat < h.memSizeAligned.toNat ∧
      ∀ a b c, pre = a ++ b :: c → b.used = false → max 12 (rtAlign size).toNat ≤ b.size →
        h.memSizeAligned.toNat ≤ width 12 a + max 12 (rtAlign size).toNat := by
  unfold Heap.fit at hfit
  split at hfit
  · cases hfit
  · rename_i hsome
    rw [not_or] at hsome
    have hsearch := hl.search hsome.2
    rw [hfit] at hsearch
    obtain ⟨pre, n, post, rfl, hq, hn, hlimit, hbefore⟩ := firstFit_some hfit
    simp only [Nat.zero_add] at hq hbefore
    subst hq
    have hneed := toNat_roundUp size
    have hdvd := four_dvd_rtAlign size
    obtain ⟨m, rest, hm, hlinked, hpairs, hrest, hlfree, husedMem, hmaxMem, hkeeps⟩ :=
      hl.take (by omega : 4 ∣ (roundUp size).toNat) (by omega) (by omega)
    have hgrant := hlinked.grant (hlfree ▸ hl.lfree) hm
    obtain ⟨h₁, hh₁⟩ : ∃ h₁, h₁ = h.take (roundUp size) (off (width 12 pre)) := ⟨_, rfl⟩
    rw [← hh₁] at hlinked hlfree husedMem hmaxMem hkeeps hgrant
    have hbound := firstFree_bounds (h := 12) (p := 0) (l := pre ++ ⟨m, true⟩ :: rest)
    have hcount := usedWidth_le (h := 12) (l := pre ++ ⟨m, true⟩ :: rest)
    have hwidths : usedWidth 12 rest = usedWidth 12 post := usedWidth_congr hrest
    have hsum : h₁.usedMem.toNat = usedWidth 12 (pre ++ ⟨m, true⟩ :: rest) := by
      have hbefore := hl.usedMem
      rw [husedMem, hbefore]
      simp only [usedWidth_append, usedWidth, hwidths, if_true, Bool.false_eq_true, if_false]
      omega
    have hmaxBefore := hl.maxMem
    have htiles := hlinked.tiles
    have hsame := hkeeps.memSize
    refine ⟨h₁.heapPtr + off (width 12 pre) + sizeofStructMem,
      { h₁ with lfree := off (firstFree 12 0 (pre ++ ⟨m, true⟩ :: rest)) }, pre, n, post, m, rest, ?_, ?_,
      rfl, rfl, ?_, ⟨hlinked.of_same rfl rfl rfl, hpairs, ?_, hsum, ?_⟩, hrest, ?_,
      ⟨hkeeps.heapPtr, hkeeps.memSize, hkeeps.payload, hkeeps.outside⟩, hn, hlimit, hbefore⟩
    · simp only [rtMalloc_eq hsome.1 hsome.2]
      subst hh₁
      exact hsearch.bind (g := fun found fuel => found.elim (some (0, h)) fun ptr =>
        LowPower.grant (h.take (roundUp size) ptr) (roundUp size) ptr fuel) hgrant
    · rw [(hlinked.malloc_ok hm).2, hkeeps.heapPtr]
    · omega
    · exact hlinked.region.toNat_off (by omega)
    · change _ ≤ h₁.maxMem.toNat ∧ h₁.maxMem.toNat ≤ h₁.memSizeAligned.toNat + 12
      rw [hsame] at htiles
      rw [hmaxMem, hsame]
      omega
    · change h₁.maxMem.toNat = max h.maxMem.toNat h₁.usedMem.toNat
      rw [hmaxMem, husedMem]

/-! ## Resizing in place -/

/-- The size of a block as `rt_realloc` computes it. -/
theorem Linked.size_at {b : Block} (hl : Linked h (pre ++ b :: post)) :
    (h.mem (off (width 12 pre))).next - off (width 12 pre) - sizeofStructMem = off b.size := by
  have hr := hl.region
  have hend := hl.lt_end
  have hnext := hl.next_sub
  have htwelve : (sizeofStructMem : U32).toNat = 12 := rfl
  rw [← BitVec.toNat_inj, hr.toNat_off (by omega), BitVec.toNat_sub_of_le]
  · omega
  · rw [BitVec.le_def]
    omega

/-- **A block is cut** to a smaller size, the rest joined with a free neighbour. -/
theorem Laid.shrink {n : ℕ} (hl : Laid h (pre ++ ⟨n, true⟩ :: post)) {rmem newsize : U32}
    (hrmem : rmem.toNat = h.heapPtr.toNat + width 12 pre + 12) (hdvd : 4 ∣ newsize.toNat)
    (hne : newsize ≠ 0) (hsmall : newsize.toNat + 24 < n) :
    ∃ h' l, h.reallocInPlace rmem newsize = some (none, h') ∧ Laid h' l ∧ h'.maxMem = h.maxMem ∧
      usedFrom 12 0 l = usedFrom 12 0 (pre ++ [⟨newsize.toNat, true⟩]) ++
        usedFrom 12 (width 12 pre + 12 + n) post ∧
      Keeps h h' (usedFrom 12 0 l) := by
  have hr := hl.region
  have hend := hl.lt_end
  dsimp only at hend
  obtain ⟨-, hlow, hhigh, hmem⟩ := hl.payload hrmem
  have hsize := hl.size_at
  dsimp only at hsize
  have hnat := hr.toNat_off (p := n) (by omega)
  have hnew : newsize.toNat ≠ 0 := by
    intro hzero
    exact hne (BitVec.eq_of_toNat_eq hzero)
  obtain ⟨s, hs⟩ : ∃ s, s = newsize.toNat := ⟨_, rfl⟩
  have hnewsize : newsize = off s := by rw [hs, off_toNat]
  rw [← hs] at hdvd hsmall hnew ⊢
  have hpre₂ : width 12 (pre ++ [⟨s, true⟩]) = width 12 pre + 12 + s := by
    simp only [width_append, width_cons, width_nil]
    omega
  -- the rest becomes a block
  obtain ⟨h₀, hh₀⟩ : ∃ h₀ : Heap, h₀ = { h with usedMem := h.usedMem - (off n - newsize) } := ⟨_, rfl⟩
  have hl₀ : Linked h₀ (pre ++ ⟨n, true⟩ :: post) :=
    hl.of_same (by rw [hh₀]) (by rw [hh₀]) (by rw [hh₀])
  obtain ⟨hl₁, hw⟩ := hl₀.split (r := n - s - 12) rfl hpre₂ (by omega) ⟨hdvd, by omega⟩ (by omega)
  have hassoc : pre ++ ⟨s, true⟩ :: ⟨n - s - 12, false⟩ :: post =
      (pre ++ [⟨s, true⟩]) ++ ⟨n - s - 12, false⟩ :: post := (List.append_assoc pre [_] _).symm
  rw [hassoc] at hl₁
  obtain ⟨h₁, hh₁⟩ : ∃ h₁, h₁ = h₀.insertMem2 (off (width 12 pre))
    (off (width 12 (pre ++ [⟨s, true⟩]))) := ⟨_, rfl⟩
  rw [← hh₁] at hl₁ hw
  have hkeeps₁ : Keeps h₀ h₁ (usedFrom 12 0 ((pre ++ [⟨s, true⟩]) ++ ⟨n - s - 12, false⟩ :: post)) := by
    refine hw.keeps (hw.memSize ▸ hl₁.tiles) fun a ha => ?_
    simp only [List.map_cons, List.map_nil, List.mem_cons, List.not_mem_nil, or_false] at ha
    have hpos : width 12 pre + 12 + n =
        width 12 (pre ++ [⟨s, true⟩, ⟨n - s - 12, false⟩]) := by
      simp only [width_append, width_cons, width_nil]
      omega
    rcases ha with rfl | rfl | rfl
    · exact ⟨_, _, rfl, rfl⟩
    · exact ⟨pre, _, List.append_assoc pre _ _, rfl⟩
    · refine ⟨_, post, ?_, congrArg _ hpos⟩
      rw [List.append_assoc, List.append_assoc]
      rfl
  -- it may be the lowest one
  have hlfree₁ : h₁.lfree = h.lfree := by rw [hh₁, insertMem2_lfree, hh₀]
  have hcases := hl.lfree_cases
  have hfirst : firstFree 12 0 (pre ++ [⟨s, true⟩]) =
      if firstFree 12 0 pre < width 12 pre then firstFree 12 0 pre else width 12 pre + 12 + s := by
    rw [firstFree_append (by decide), Nat.zero_add]
    rfl
  obtain ⟨hl₂, hlfree₂⟩ := hl₁.lowerFree (by
    rw [hlfree₁, hfirst, hpre₂]
    split <;> omega)
  obtain ⟨husedMem₂, hmaxMem₂, hkeeps₂⟩ := lowerFree_same
    (l := (pre ++ [⟨s, true⟩]) ++ ⟨n - s - 12, false⟩ :: post) h₁
      (off (width 12 (pre ++ [⟨s, true⟩])))
  have hpairs := noFreePair_used.mp hl.pairs
  obtain ⟨h', l, hplug, hplugged, hpairs'⟩ := hl₂.plugHoles
    (noFreePair_used.mpr ⟨hpairs.1, List.isChain_nil⟩) hpairs.2 hlfree₂
  have hkeeps₀ : Keeps h h₀ (usedFrom 12 0 ((pre ++ [⟨s, true⟩]) ++ ⟨n - s - 12, false⟩ :: post)) := by
    rw [hh₀]
    exact ⟨rfl, rfl, fun _ _ _ _ _ => rfl, fun _ _ => rfl⟩
  have hkeeps := ((hkeeps₀.trans hkeeps₁).trans hkeeps₂).trans hplugged.keeps
  have hmax : h'.maxMem = h.maxMem := by
    rw [hplugged.maxMem, hmaxMem₂, hh₁, insertMem2_maxMem, hh₀]
  have husedMem : h'.usedMem = h.usedMem - (off n - newsize) := by
    rw [hplugged.usedMem, husedMem₂, hh₁, insertMem2_usedMem, hh₀]
  have hcount : usedWidth 12 l + (n - s) = usedWidth 12 (pre ++ ⟨n, true⟩ :: post) := by
    have hwidth := usedWidth_congr hplugged.used
    rw [hwidth]
    simp only [usedWidth_append, usedWidth, if_true, Bool.false_eq_true, if_false]
    omega
  have hsub : (off n - newsize).toNat = n - s := by
    rw [BitVec.toNat_sub_of_le]
    · omega
    · rw [BitVec.le_def]
      omega
  have hbefore := hl.usedMem
  have hmaxBefore := hl.maxMem
  have hsame := hkeeps.memSize
  refine ⟨h', l, ?_, ⟨hplugged.linked, hpairs', ?_, ?_, ?_⟩, hmax, ?_, ?_⟩
  · have hcut : newsize + sizeofStructMem + minSize < off n := by
      have hinner := toNat_add_twelve (x := newsize) (by omega)
      have houter : (newsize + sizeofStructMem + minSize).toNat =
          (newsize + sizeofStructMem).toNat + 12 := toNat_add_twelve (by omega)
      rw [BitVec.lt_def]
      omega
    have hdiff : off n ≠ newsize := by
      intro heq
      have := congrArg BitVec.toNat heq
      omega
    have hp₂ : off (width 12 pre) + sizeofStructMem + newsize =
        off (width 12 (pre ++ [⟨s, true⟩])) := by
      have hstart := hr.toNat_off (p := width 12 pre) (by omega)
      have hfits := hr.fits
      have hdata := toNat_add_twelve (x := off (width 12 pre)) (by omega)
      rw [← BitVec.toNat_inj, BitVec.toNat_add, hdata, hstart, hr.toNat_off (by omega),
        Nat.mod_eq_of_lt (by omega)]
      omega
    unfold Heap.reallocInPlace
    rw [if_neg (not_or.mpr ⟨hlow, hhigh⟩)]
    simp only [hmem, hsize, if_neg hdiff, if_pos hcut, hp₂]
    rw [← hh₀, ← hh₁]
    exact congrArg (Option.map (Prod.mk none)) hplug
  · rw [hplugged.lfree, hplugged.first]
    exact hlfree₂
  · rw [husedMem, BitVec.toNat_sub_of_le]
    · omega
    · rw [BitVec.le_def]
      omega
  · rw [hmax, hsame]
    omega
  · have hpos : 0 + width 12 (pre ++ [⟨s, true⟩]) + 12 + (n - s - 12) = width 12 pre + 12 + n := by
      omega
    rw [hplugged.used, usedFrom_append, usedFrom_cons_free, hpos]
  · rw [hplugged.used]
    exact hkeeps

/-- **A block that is not cut** stays as it is: it has the size, or a larger one is asked for, or the
rest would be too small for a block. -/
theorem Linked.inPlace {n : ℕ} (hl : Linked h (pre ++ ⟨n, true⟩ :: post)) {rmem newsize : U32}
    (hrmem : rmem.toNat = h.heapPtr.toNat + width 12 pre + 12)
    (hfits : newsize.toNat + 24 < 2 ^ 32) (hlarge : n ≤ newsize.toNat + 24) :
    h.reallocInPlace rmem newsize = some (if newsize.toNat = n then none else some (off n), h) := by
  have hr := hl.region
  have hend := hl.lt_end
  dsimp only at hend
  obtain ⟨-, hlow, hhigh, hmem⟩ := hl.payload hrmem
  have hsize := hl.size_at
  dsimp only at hsize
  have hnat := hr.toNat_off (p := n) (by omega)
  have hsame : off n = newsize ↔ newsize.toNat = n := by
    rw [← BitVec.toNat_inj, hnat]
    exact eq_comm
  have hcut : ¬newsize + sizeofStructMem + minSize < off n := by
    have hinner := toNat_add_twelve (x := newsize) (by omega)
    have houter : (newsize + sizeofStructMem + minSize).toNat =
        (newsize + sizeofStructMem).toNat + 12 := toNat_add_twelve (by omega)
    rw [BitVec.lt_def]
    omega
  unfold Heap.reallocInPlace
  rw [if_neg (not_or.mpr ⟨hlow, hhigh⟩)]
  simp only [hmem, hsize, hsame, if_neg hcut]
  split <;> rfl

/-! ## The start -/

/-- The header at the start of the heap. -/
def initFirst (h : Heap) : Heap :=
  (((h.setMagic 0 heapMagic).setNext 0 h.heapEnd).setPrev 0 0).setUsed 0 0

theorem initFirst_mem (h : Heap) : (initFirst h).mem 0 = ⟨heapMagic, 0, h.heapEnd, 0⟩ := by
  rw [initFirst, mem_setUsed, mem_setPrev, mem_setNext, mem_setMagic]

/-- The header at the end. -/
def initLast (h : Heap) (heapEnd : U32) : Heap :=
  (((h.setMagic heapEnd heapMagic).setUsed heapEnd 1).setNext heapEnd heapEnd).setPrev heapEnd heapEnd

theorem initFirst_writes (h : Heap) : Writes h (initFirst h) [h.addr 0] :=
  (((setMagic_writes h 0 heapMagic).again (setNext_writes _ 0 h.heapEnd)).again
    (setPrev_writes _ 0 0)).again (setUsed_writes _ 0 0)

theorem initLast_writes (h : Heap) (heapEnd : U32) :
    Writes h (initLast h heapEnd) [h.addr heapEnd] :=
  (((setMagic_writes h heapEnd heapMagic).again (setUsed_writes _ heapEnd 1)).again
    (setNext_writes _ heapEnd heapEnd)).again (setPrev_writes _ heapEnd heapEnd)

theorem initLast_mem (hr : Region h) : (initLast h h.heapEnd).mem 0 = h.mem 0 ∧
    ((initLast h h.heapEnd).mem h.heapEnd).used = 1 := by
  have hw := initLast_writes h h.heapEnd
  constructor
  · rw [hr.heapEnd_eq] at hw ⊢
    exact hw.mem_one (p := 0) hr (Nat.zero_le _) (Nat.le_refl _) (.inl (Nat.le_add_left 12 _))
  · rw [initLast, mem_setPrev, mem_setNext, mem_setUsed]

/-- **The heap of a region at the start** is one free block. -/
theorem rtSystemHeapInit_laid {beginAddr endAddr : U32} (hused : h.usedMem = 0) (hmax : h.maxMem = 0)
    (hroom : (rtAlign beginAddr).toNat + 36 ≤ (rtAlignDown endAddr).toNat) :
    (h.rtSystemHeapInit beginAddr endAddr).heapPtr = rtAlign beginAddr ∧
      (h.rtSystemHeapInit beginAddr endAddr).memSizeAligned.toNat =
        (rtAlignDown endAddr).toNat - (rtAlign beginAddr).toNat - 24 ∧
      Laid (h.rtSystemHeapInit beginAddr endAddr)
        [⟨(h.rtSystemHeapInit beginAddr endAddr).memSizeAligned.toNat, false⟩] ∧
      ∀ x, x < (rtAlign beginAddr).toNat ∨ (rtAlignDown endAddr).toNat ≤ x →
        (h.rtSystemHeapInit beginAddr endAddr).ram x = h.ram x := by
  have hdvd := four_dvd_rtAlign beginAddr
  have hdown := toNat_rtAlignDown endAddr
  have hlt := endAddr.isLt
  have htwo : (2 * sizeofStructMem : U32).toNat = 24 := rfl
  have hsub : (rtAlignDown endAddr - rtAlign beginAddr).toNat =
      (rtAlignDown endAddr).toNat - (rtAlign beginAddr).toNat :=
    BitVec.toNat_sub_of_le (BitVec.le_def.mpr (by omega))
  have hsize : (rtAlignDown endAddr - rtAlign beginAddr - 2 * sizeofStructMem).toNat =
      (rtAlignDown endAddr).toNat - (rtAlign beginAddr).toNat - 24 := by
    rw [BitVec.toNat_sub_of_le (BitVec.le_def.mpr (by omega)), hsub, htwo]
  have hcond : 2 * sizeofStructMem < rtAlignDown endAddr ∧
      rtAlign beginAddr ≤ rtAlignDown endAddr - 2 * sizeofStructMem := by
    have hback : (rtAlignDown endAddr - 2 * sizeofStructMem).toNat = (rtAlignDown endAddr).toNat - 24 :=
      BitVec.toNat_sub_of_le (BitVec.le_def.mpr (by omega))
    constructor
    · rw [BitVec.lt_def]
      omega
    · rw [BitVec.le_def]
      omega
  obtain ⟨h₀, hh₀⟩ : ∃ h₀ : Heap, h₀ = { h with
    memSizeAligned := rtAlignDown endAddr - rtAlign beginAddr - 2 * sizeofStructMem
    heapPtr := rtAlign beginAddr } := ⟨_, rfl⟩
  have hr₀ : Region h₀ := by
    rw [hh₀]
    constructor
    all_goals
      dsimp only
      omega
  obtain ⟨h₁, hh₁⟩ : ∃ h₁, h₁ = initFirst h₀ := ⟨_, rfl⟩
  have hr₁ : Region h₁ := by
    rw [hh₁]
    exact hr₀.congr rfl rfl
  have hend : h₁.heapEnd = h₀.heapEnd := by
    rw [hh₁]
    rfl
  obtain ⟨hfirst, hlast⟩ := initLast_mem hr₁
  have hinit : h.rtSystemHeapInit beginAddr endAddr =
      { initLast h₁ h₁.heapEnd with lfree := 0 } := by
    unfold Heap.rtSystemHeapInit
    dsimp only
    rw [if_pos hcond, ← hh₀]
    have hsum : rtAlignDown endAddr - rtAlign beginAddr - 2 * sizeofStructMem + sizeofStructMem =
        h₀.heapEnd := by
      rw [hh₀]
      rfl
    rw [hsum, ← initFirst, ← hh₁, hh₁, initFirst_mem, ← hh₁, ← initLast, hend]
  obtain ⟨n, hn⟩ : ∃ n, n = h₀.memSizeAligned.toNat := ⟨_, rfl⟩
  have hn' : n = (rtAlignDown endAddr).toNat - (rtAlign beginAddr).toNat - 24 := by
    rw [hn, hh₀]
    exact hsize
  have hptr : h₁.heapPtr = rtAlign beginAddr := by
    rw [hh₁, hh₀]
    rfl
  have hmem : h₁.memSizeAligned.toNat = n := by
    rw [hh₁, hn]
    rfl
  have hcounts : h₁.usedMem = 0 ∧ h₁.maxMem = 0 := by
    rw [hh₁, hh₀]
    exact ⟨hused, hmax⟩
  have hheader : h₁.mem 0 = ⟨heapMagic, 0, off (12 + n), 0⟩ := by
    rw [hh₁, initFirst_mem, hr₀.heapEnd_eq, ← hn, Nat.add_comm]
  rw [hinit]
  refine ⟨hptr, hmem.trans hn', ?_, fun x hx => ?_⟩
  swap
  · have haddr : h₀.addr 0 = h₀.heapPtr.toNat := hr₀.addr_off (p := 0) (Nat.zero_le _)
    have hlast₁ : h₁.addr h₁.heapEnd = h₁.heapPtr.toNat + (h₁.memSizeAligned.toNat + 12) := by
      rw [hr₁.heapEnd_eq, hr₁.addr_off (Nat.le_refl _)]
    have hptr₀ : h₀.heapPtr = rtAlign beginAddr := by rw [hh₀]
    have hsecond := (initLast_writes h₁ h₁.heapEnd).ram x fun a ha => by
      obtain rfl := List.mem_singleton.mp ha
      rw [hlast₁, hptr, hmem]
      omega
    have hbegin := (initFirst_writes h₀).ram x fun a ha => by
      obtain rfl := List.mem_singleton.mp ha
      rw [haddr, hptr₀]
      omega
    rw [← hh₁] at hbegin
    refine hsecond.trans (hbegin.trans ?_)
    rw [hh₀]
  change Laid _ [⟨h₁.memSizeAligned.toNat, false⟩]
  rw [hmem]
  refine ⟨⟨hr₁.congr rfl rfl, ?_, ⟨?_, trivial⟩, ?_, ?_⟩, List.isChain_singleton _, rfl, ?_, ?_⟩
  · change 12 + n + 0 = h₁.memSizeAligned.toNat + 12
    omega
  · have hzero : 0 + 12 + n = 12 + n := by omega
    rw [Link, hzero]
    exact hfirst.trans hheader
  · intro b hb
    obtain rfl := List.mem_singleton.mp hb
    have hfour := hr₁.dvd_size
    have hroom₁ := hr₁.room
    dsimp only
    omega
  · change ((initLast h₁ h₁.heapEnd).mem h₁.heapEnd).used ≠ 0
    rw [hlast]
    decide
  · exact congrArg BitVec.toNat hcounts.1
  · change 0 ≤ h₁.maxMem.toNat ∧ h₁.maxMem.toNat ≤ h₁.memSizeAligned.toNat + 12
    rw [hcounts.2]
    exact ⟨Nat.zero_le _, Nat.zero_le _⟩

end LowPower
