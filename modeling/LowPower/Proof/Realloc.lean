import LowPower.Proof.HeapRuns

/-!
# Requests and resizing

* `malloc_first_fit`: which block `rt_malloc` takes, and when there is none.
* `realloc_run`: what `rt_realloc` keeps when it resizes, moves or frees a block.
* `calloc_zeroed`: what `rt_calloc` grants is zero.
-/

namespace LowPower

open Blocks

variable {h : Heap} {l : List Block} {s s' s₀ : HeapRun} {kind : HeapStep → Prop}

/-! ## The first fit -/

/-- A free block with room for a request, where the search still looks. -/
def Heap.Fits (h : Heap) (size : U32) (pre : List Block) (b : Block) : Prop :=
  b.used = false ∧ max 12 (rtAlign size).toNat ≤ b.size ∧
    width 12 pre + max 12 (rtAlign size).toNat < h.memSizeAligned.toNat

theorem fit_eq_none {size : U32} (hfit : h.fit size l = none) :
    size = 0 ∨ h.memSizeAligned < rtAlign size ∨
      ∀ pre b post, l = pre ++ b :: post → ¬h.Fits size pre b := by
  unfold Heap.fit at hfit
  split at hfit
  · rename_i hnone
    rcases hnone with hzero | hlarge
    · exact .inl hzero
    · exact .inr (.inl hlarge)
  · refine .inr (.inr ?_)
    rintro pre b post rfl ⟨hfree, hsize, hlimit⟩
    have := firstFit_eq_none.mp hfit pre b post rfl hfree hsize
    omega

section Runs

variable {ram : Ram.Memory} {beginAddr endAddr : U32}
  (hroom : (rtAlign beginAddr).toNat + 36 ≤ (rtAlignDown endAddr).toNat)

include hroom

/-- **An allocation takes the lowest block that fits**, whole or without what is cut off behind it, and
returns a null pointer when none does. A size of `0xfffffffd` or more is rounded up to 0, so that its
block need not hold it. -/
theorem malloc_first_fit (h : HeapRuns (fun _ => True) (heapStart ram beginAddr endAddr) s)
    (size : U32) :
    ∃ l p heap, Laid s.heap l ∧ Returns (fun fuel => s.heap.rtMalloc size fuel) (p, heap) ∧
      (p = 0 → heap = s.heap ∧ (size = 0 ∨ s.heap.memSizeAligned < rtAlign size ∨
        ∀ pre b post, l = pre ++ b :: post → ¬s.heap.Fits size pre b)) ∧
      (p ≠ 0 → size ≠ 0 ∧ rtAlign size ≤ s.heap.memSizeAligned ∧
        ∃ pre n post m rest, l = pre ++ ⟨n, false⟩ :: post ∧
          p.toNat = s.heap.heapPtr.toNat + width 12 pre + 12 ∧ s.heap.Fits size pre ⟨n, false⟩ ∧
          (∀ a b c, pre = a ++ b :: c → ¬s.heap.Fits size a b) ∧
          max 12 (rtAlign size).toNat ≤ m ∧ Laid heap (pre ++ ⟨m, true⟩ :: rest) ∧
          usedFrom 12 (width 12 pre + 12 + m) rest = usedFrom 12 (width 12 pre + 12 + n) post) ∧
      (size.toNat ≤ max 12 (rtAlign size).toNat ↔ size.toNat + 3 < 2 ^ 32) := by
  obtain ⟨⟨l, ho⟩, -⟩ := h.owned hroom
  have hround : size.toNat ≤ max 12 (rtAlign size).toNat ↔ size.toNat + 3 < 2 ^ 32 := by
    have := size.isLt
    rw [toNat_rtAlign]
    split <;> omega
  cases hfit : s.heap.fit size l with
  | none =>
    exact ⟨l, 0, s.heap, ho.laid, ho.laid.malloc_none hfit, fun _ => ⟨rfl, fit_eq_none hfit⟩,
      fun hne => absurd rfl hne, hround⟩
  | some q =>
    obtain ⟨p, h', pre, n, post, m, rest, hcall, hp, rfl, rfl, hm, hlaid, hrest, -, -, hn, hlimit,
      hbefore⟩ := ho.laid.malloc_some hfit
    refine ⟨_, p, h', ho.laid, hcall, fun hzero => ?_, fun _ => ?_, hround⟩
    · rw [hzero] at hp
      have hnat : (0 : U32).toNat = 0 := rfl
      omega
    · have hsome : ¬(size = 0 ∨ s.heap.memSizeAligned < rtAlign size) := by
        intro hnone
        unfold Heap.fit at hfit
        rw [if_pos hnone] at hfit
        cases hfit
      rw [not_or] at hsome
      refine ⟨hsome.1, BitVec.not_lt.mp hsome.2, pre, n, post, m, rest, rfl, hp, ⟨rfl, hn, hlimit⟩, ?_,
        hm, hlaid, hrest⟩
      rintro a b c hpre ⟨hfree, hsize, hlow⟩
      have := hbefore a b c hpre hfree hsize
      omega

omit hroom in
theorem malloc_first_fit_twenty : ∃ s : HeapRun, s.live 0x20000010 = some 20 ∧
    ∃ l p heap, Laid s.heap l ∧ Returns (fun fuel => s.heap.rtMalloc 8 fuel) (p, heap) ∧
      (p = 0 → ∀ pre b post, l = pre ++ b :: post → ¬s.heap.Fits 8 pre b) := by
  obtain ⟨s, hrun, hheld⟩ := exists_live_twenty
  have hlive : s.live 0x20000010 = some 20 := congrFun hheld _
  have hroom : (rtAlign 0x20000001).toNat + 36 ≤ (rtAlignDown 0x20000103).toNat := by decide
  obtain ⟨l, p, heap, hlaid, hreturns, hnull, -⟩ := malloc_first_fit hroom hrun 8
  refine ⟨s, hlive, l, p, heap, hlaid, hreturns, fun hzero => ?_⟩
  rcases (hnull hzero).2 with hsize | hlarge | hfits
  · cases hsize
  · have hmem := (hrun.owned hroom).2.2.1
    rw [BitVec.lt_def, hmem] at hlarge
    exact absurd hlarge (by decide)
  · exact hfits

end Runs

/-! ## Filling a block -/

/-- **Bytes that are written one by one** to a block that is held. -/
theorem HeapRuns.fill (h : HeapRuns kind s₀ s) {p n : ℕ} (hlive : s.live p = some n)
    (hkind : ∀ a v, p ≤ a → a < p + n → kind (.write a v)) (g : ℕ → U8) {j : ℕ} (hj : j ≤ n) :
    HeapRuns kind s₀
      ⟨{ s.heap with ram := fun a => if p ≤ a ∧ a < p + j then g a else s.heap.ram a }, s.live⟩ := by
  induction j with
  | zero =>
    have hsame : (fun a => if p ≤ a ∧ a < p + 0 then g a else s.heap.ram a) = s.heap.ram := by
      funext a
      exact if_neg (by omega)
    rw [hsame]
    exact h
  | succ j ih =>
    have hnext : (fun a => if p ≤ a ∧ a < p + (j + 1) then g a else s.heap.ram a) = Function.update
        (fun a => if p ≤ a ∧ a < p + j then g a else s.heap.ram a) (p + j) (g (p + j)) := by
      funext a
      by_cases ha : a = p + j
      · rw [ha, Function.update_self, if_pos (by omega)]
      · rw [Function.update_of_ne ha]
        by_cases hin : p ≤ a ∧ a < p + j
        · rw [if_pos hin, if_pos (by omega)]
        · rw [if_neg hin, if_neg (by omega)]
    rw [hnext]
    exact (ih (by omega)).step (.write (p + j) (g (p + j))) (hkind _ _ (by omega) (by omega))
      ⟨p, n, hlive, by omega, by omega⟩ (Returns.of_eq fun _ => rfl)

/-- The owner after steps of any kind. -/
theorem HeapRuns.owned_of (h : HeapRuns kind s₀ s) (ho : Owned s₀ l) : ∃ l', Owned s l' := by
  induction h with
  | refl => exact ⟨l, ho⟩
  | step _ call _ hallowed hexec ih =>
    obtain ⟨l', ho'⟩ := ih
    obtain ⟨s', l'', hreturns, ho'', -⟩ := ho'.step hallowed
    obtain rfl := hexec.unique hreturns
    exact ⟨l'', ho''⟩

/-! ## Resizing -/

theorem rtAlign_rtAlign {size : U32} (hfits : (rtAlign size).toNat + 3 < 2 ^ 32) :
    rtAlign (rtAlign size) = rtAlign size := by
  have hdvd := four_dvd_rtAlign size
  rw [← BitVec.toNat_inj, toNat_rtAlign, if_pos hfits]
  omega

/-- The steps that touch no other block than one. -/
def HeapStep.Beside (s : HeapRun) (rmem : U32) (call : HeapStep) : Prop :=
  ∀ a n, s.live a = some n → a ≠ rmem.toNat → ¬call.Touches a n

/-- `rt_realloc` of a block that is not resized in place. -/
theorem rtRealloc_grow {rmem newsize size : U32} (hsmall : ¬h.memSizeAligned < rtAlign newsize)
    (hne : rtAlign newsize ≠ 0) (hrmem : rmem ≠ 0)
    (hgrow : h.reallocInPlace rmem (rtAlign newsize) = some (some size, h)) (fuel : ℕ) :
    h.rtRealloc rmem newsize fuel = (h.rtMalloc (rtAlign newsize) fuel).bind fun found =>
      if found.1 ≠ 0 then
        ((found.2.rtMemcpy found.1 rmem (if size < rtAlign newsize then size
          else rtAlign newsize)).rtFree rmem).map (found.1, ·)
      else some found := by
  unfold Heap.rtRealloc
  dsimp only
  rw [if_neg hsmall, if_neg hne, if_neg hrmem, hgrow]
  rfl

theorem rtRealloc_inPlace {rmem newsize : U32} {h' : Heap} (hsmall : ¬h.memSizeAligned < rtAlign newsize)
    (hne : rtAlign newsize ≠ 0) (hrmem : rmem ≠ 0)
    (hplace : h.reallocInPlace rmem (rtAlign newsize) = some (none, h')) (fuel : ℕ) :
    h.rtRealloc rmem newsize fuel = some (rmem, h') := by
  unfold Heap.rtRealloc
  dsimp only
  rw [if_neg hsmall, if_neg hne, if_neg hrmem, hplace]
  rfl

/-- **A block that is moved**: the new one is taken, the contents are copied, and the old one is freed. -/
theorem Owned.move (ho : Owned s l) {rmem size newsize : U32} {n m : ℕ}
    (hlive : s.live rmem.toNat = some n) (hsize : size.toNat = m) (hn : n ≤ m)
    (hround : rtAlign newsize = newsize) :
    ∃ p heap, Returns (fun fuel => (s.heap.rtMalloc newsize fuel).bind fun found =>
        if found.1 ≠ 0 then
          ((found.2.rtMemcpy found.1 rmem (if size < newsize then size else newsize)).rtFree rmem).map
            (found.1, ·)
        else some found) (p, heap) ∧
      (p = 0 ∧ heap = s.heap ∨ p ≠ 0 ∧ ∃ s', s'.heap = heap ∧
        HeapRuns (HeapStep.Beside s rmem) s s' ∧
        s'.live = Function.update (Function.update s.live rmem.toNat none) p.toNat
          (some newsize.toNat) ∧
        ∀ i < min n newsize.toNat, heap.ram (p.toNat + i) = s.heap.ram (rmem.toNat + i)) := by
  obtain ⟨p, h₁, hcall, ⟨rfl, rfl⟩ | ⟨hne, hfresh, l₁, ho₁, hothers₁⟩⟩ := ho.rtMalloc newsize
  · refine ⟨0, s.heap, hcall.bind (Returns.of_eq fun _ => ?_), .inl ⟨rfl, rfl⟩⟩
    exact if_neg fun hcond => hcond rfl
  have hdiff : rmem.toNat ≠ p.toNat := by
    intro heq
    rw [heq, hfresh] at hlive
    cases hlive
  have hothers₁' : ∀ a k, s.live a = some k →
      Function.update s.live p.toNat (some (rtAlign newsize).toNat) a = some k ∧
        ∀ i < k, h₁.ram (a + i) = s.heap.ram (a + i) :=
    fun a k ha => ⟨hothers₁.live a k ha fun htouch => htouch, hothers₁.payload a k ha fun htouch => htouch⟩
  -- the allocation
  have hrun₁ : HeapRuns (HeapStep.Beside s rmem) s
      ⟨h₁, Function.update s.live p.toNat (some (rtAlign newsize).toNat)⟩ :=
    HeapRuns.refl.step (.malloc newsize) (fun _ _ _ _ htouch => htouch) trivial
      (hcall.exec_malloc hne)
  rw [hround] at ho₁ hothers₁' hrun₁
  -- the copy, byte by byte
  have hself : Function.update s.live p.toNat (some newsize.toNat) p.toNat = some newsize.toNat :=
    Function.update_self ..
  have hbeside : ∀ a v, p.toNat ≤ a → a < p.toNat + newsize.toNat →
      HeapStep.Beside s rmem (.write a v) := by
    rintro a v hle hlt b k hb - ⟨hbelow, habove⟩
    have hb₁ := (hothers₁' b k hb).1
    rcases Nat.lt_trichotomy b p.toNat with hlow | rfl | hhigh
    · have := ho₁.apart hb₁ hself hlow
      omega
    · rw [hfresh] at hb
      cases hb
    · have := ho₁.apart hself hb₁ hhigh
      omega
  have hrun₂ := hrun₁.fill hself hbeside (fun a => h₁.ram (rmem.toNat + (a - p.toNat)))
    (j := (if size < newsize then size else newsize).toNat) (by
      split <;> rename_i hlt
      · exact Nat.le_of_lt (BitVec.lt_def.mp hlt)
      · exact Nat.le_refl _)
  obtain ⟨l₂, ho₂⟩ := hrun₂.owned_of ho
  -- the old block
  have hold : Function.update s.live p.toNat (some newsize.toNat) rmem.toNat = some n :=
    (hothers₁' _ _ hlive).1
  obtain ⟨h₃, l₃, hfree, -, hothers₃⟩ := ho₂.rtFree hold
  have hrmem : rmem ≠ 0 := by
    rintro rfl
    obtain ⟨q, k, -, heq, -⟩ := ho.granted _ _ hlive
    have hzero : (0 : U32).toNat = 0 := rfl
    omega
  have hrun₃ := hrun₂.step (.free rmem)
    (fun _ _ _ hother htouch => hother htouch.symm) (fun _ => Option.isSome_iff_exists.mpr ⟨n, hold⟩)
    (Returns.of_eq fun _ => by rw [HeapStep.exec, hfree, Option.map_some, if_neg hrmem])
  refine ⟨p, h₃, hcall.bind (Returns.of_eq fun _ => ?_), .inr ⟨hne, _, ?_, hrun₃, ?_, fun i hi => ?_⟩⟩
  · rw [if_pos hne]
    exact congrArg (Option.map (p, ·)) hfree
  · rfl
  · exact (Function.update_comm hdiff _ _ _).symm
  · have hlt : p.toNat + i < p.toNat + (if size < newsize then size else newsize).toNat := by
      split
      · omega
      · omega
    have hpayload := hothers₃.payload _ _ hself (fun htouch => hdiff htouch) i (by omega)
    have hcopied := (hothers₁' _ _ hlive).2 i (by omega)
    dsimp only at hpayload
    rw [if_pos ⟨by omega, hlt⟩] at hpayload
    rw [hpayload, ← hcopied, Nat.add_sub_cancel_left]

/-- Steps beside a block leave every other block. -/
theorem HeapRuns.others {rmem : U32} (h : HeapRuns (HeapStep.Beside s rmem) s s') (ho : Owned s l)
    {a k : ℕ} (ha : s.live a = some k) (hne : a ≠ rmem.toNat) :
    s'.live a = some k ∧ ∀ i < k, s'.heap.ram (a + i) = s.heap.ram (a + i) :=
  ((h.mono fun _ hbeside => hbeside a k ha hne).contents ho ha).2

theorem HeapRuns.trans {s₁ : HeapRun} (h : HeapRuns kind s₀ s) (h₁ : HeapRuns kind s s₁) :
    HeapRuns kind s₀ s₁ := by
  induction h₁ with
  | refl => exact h
  | step _ call hkind hallowed hexec ih => exact ih.step call hkind hallowed hexec

section Resize

variable {ram : Ram.Memory} {beginAddr endAddr : U32}
  (hroom : (rtAlign beginAddr).toNat + 36 ≤ (rtAlignDown endAddr).toNat)

include hroom

/-- **Resizing a block**, in every state of a run. What does not fit at all leaves the heap as it is, and
a size that is rounded up to 0 frees the block. Otherwise the block is resized where it lies or moved with
its contents, or a null pointer is returned and the heap stays as it is. No other block changes. -/
theorem realloc_run (h : HeapRuns (fun _ => True) (heapStart ram beginAddr endAddr) s) {rmem : U32}
    {n : ℕ} (hlive : s.live rmem.toNat = some n) (newsize : U32) :
    ∃ p s', Returns (fun fuel => s.heap.rtRealloc rmem newsize fuel) (p, s'.heap) ∧
      HeapRuns (fun _ => True) (heapStart ram beginAddr endAddr) s' ∧
      (∀ a k, s.live a = some k → a ≠ rmem.toNat →
        s'.live a = some k ∧ ∀ i < k, s'.heap.ram (a + i) = s.heap.ram (a + i)) ∧
      (s.heap.memSizeAligned < rtAlign newsize → p = 0 ∧ s' = s) ∧
      (rtAlign newsize = 0 → p = 0 ∧ s'.live = Function.update s.live rmem.toNat none) ∧
      (rtAlign newsize ≠ 0 → p ≠ 0 →
        s'.live = Function.update (Function.update s.live rmem.toNat none) p.toNat
            (some (rtAlign newsize).toNat) ∧
          ∀ i < min n (rtAlign newsize).toNat,
            s'.heap.ram (p.toNat + i) = s.heap.ram (rmem.toNat + i)) ∧
      (rtAlign newsize ≠ 0 → p = 0 → s' = s) := by
  obtain ⟨⟨l, ho⟩, -⟩ := h.owned hroom
  have hfits := ho.laid.region.fits
  have hrmem : rmem ≠ 0 := by
    rintro rfl
    obtain ⟨q, k, -, heq, -⟩ := ho.granted _ _ hlive
    have hzero : (0 : U32).toNat = 0 := rfl
    omega
  by_cases hlarge : s.heap.memSizeAligned < rtAlign newsize
  · -- more than the whole heap
    have hne : rtAlign newsize ≠ 0 := by
      intro hzero
      rw [hzero, BitVec.lt_def] at hlarge
      exact absurd hlarge (Nat.not_lt_zero _)
    refine ⟨0, s, Returns.of_eq fun _ => if_pos hlarge, h, fun a k ha _ => ⟨ha, fun _ _ => rfl⟩,
      fun _ => ⟨rfl, rfl⟩, fun hzero => absurd hzero hne, fun _ hcond => absurd rfl hcond,
      fun _ _ => rfl⟩
  have hle := BitVec.not_lt.mp hlarge
  by_cases hzero : rtAlign newsize = 0
  · -- the block is freed
    obtain ⟨h', l', hfree, -, hothers⟩ := ho.rtFree hlive
    refine ⟨0, ⟨h', Function.update s.live rmem.toNat none⟩, Returns.of_eq fun _ => ?_, ?_,
      fun a k ha hne => ⟨hothers.live a k ha fun heq => hne heq.symm,
        hothers.payload a k ha fun heq => hne heq.symm⟩,
      fun hcond => absurd hcond hlarge, fun _ => ⟨rfl, rfl⟩, fun hcond => absurd hzero hcond,
      fun hcond => absurd hzero hcond⟩
    · unfold Heap.rtRealloc
      dsimp only
      rw [if_neg hlarge, if_pos hzero, hfree, Option.map_some]
    · exact h.step (.free rmem) trivial (fun _ => Option.isSome_iff_exists.mpr ⟨n, hlive⟩)
        (Returns.of_eq fun _ => by rw [HeapStep.exec, hfree, Option.map_some, if_neg hrmem])
  obtain ⟨grow, h', hplace, ⟨rfl, l', ho', hothers, hram⟩ | ⟨m, rfl, rfl, hn, hm⟩⟩ :=
    ho.reallocInPlace hlive hzero hle (four_dvd_rtAlign newsize)
  · -- the block stays
    refine ⟨rmem, ⟨h', Function.update s.live rmem.toNat (some (rtAlign newsize).toNat)⟩,
      Returns.of_eq fun fuel => rtRealloc_inPlace hlarge hzero hrmem hplace fuel, ?_,
      fun a k ha hne => ⟨hothers.live a k ha fun heq => hne heq.symm,
        hothers.payload a k ha fun heq => hne heq.symm⟩,
      fun hcond => absurd hcond hlarge, fun hcond => absurd hcond hzero, fun _ _ => ⟨?_, hram⟩,
      fun _ hcond => absurd hcond hrmem⟩
    · refine h.step (.inPlace rmem (rtAlign newsize)) trivial
        ⟨Option.isSome_iff_exists.mpr ⟨n, hlive⟩, hzero, hle, newsize, rfl⟩ (Returns.of_eq fun _ => ?_)
      simp only [HeapStep.exec, hplace, Option.map_some, if_true]
    · exact (Function.update_idem _ _ _).symm
  · -- the block is moved
    have hround : rtAlign (rtAlign newsize) = rtAlign newsize := by
      refine rtAlign_rtAlign ?_
      rw [BitVec.le_def] at hle
      omega
    have hoff : (off m).toNat = m := ho.laid.region.toNat_off (by omega)
    obtain ⟨p, heap, hcall, hmoved⟩ := ho.move hlive hoff hn hround
    have hreturns : Returns (fun fuel => s.heap.rtRealloc rmem newsize fuel) (p, heap) := by
      simp only [rtRealloc_grow hlarge hzero hrmem hplace]
      exact hcall
    rcases hmoved with ⟨rfl, rfl⟩ | ⟨hne, s', rfl, hrun, hlive', hram⟩
    · exact ⟨0, s, hreturns, h, fun a k ha _ => ⟨ha, fun _ _ => rfl⟩,
        fun hcond => absurd hcond hlarge, fun hcond => absurd hcond hzero,
        fun _ hcond => absurd rfl hcond, fun _ _ => rfl⟩
    · exact ⟨p, s', hreturns, h.trans (hrun.mono fun _ _ => trivial),
        fun a k ha hne => hrun.others ho ha hne,
        fun hcond => absurd hcond hlarge, fun hcond => absurd hcond hzero,
        fun _ _ => ⟨hlive', hram⟩, fun _ hcond => absurd hcond hne⟩

omit hroom in
theorem realloc_run_twenty : ∃ (s : HeapRun) (p : U32) (s' : HeapRun), s.live 0x20000010 = some 20 ∧
    Returns (fun fuel => s.heap.rtRealloc 0x20000010 40 fuel) (p, s'.heap) ∧
    (p = 0 ∧ s' = s ∨ s'.live p.toNat = some 40 ∧
      ∀ i < 20, s'.heap.ram (p.toNat + i) = s.heap.ram (0x20000010 + i)) := by
  obtain ⟨s, hrun, hheld⟩ := exists_live_twenty
  have hlive : s.live 0x20000010 = some 20 := congrFun hheld _
  have hat : s.live (0x20000010 : U32).toNat = some 20 := hlive
  obtain ⟨p, s', hreturns, -, -, -, -, hsome, hnone⟩ := realloc_run (by decide) hrun hat 40
  refine ⟨s, p, s', hlive, hreturns, ?_⟩
  by_cases hp : p = 0
  · exact .inl ⟨hp, hnone (by decide) hp⟩
  · obtain ⟨hlive', hram⟩ := hsome (by decide) hp
    rw [hlive', Function.update_self]
    exact .inr ⟨rfl, fun i hi => hram i (Nat.lt_min.mpr ⟨hi, Nat.lt_trans hi (by decide)⟩)⟩

/-- **A zeroed block**, in every state of a run: the number of its bytes is the product cut to 32 bits, and
all of them are 0. No other block changes. -/
theorem calloc_zeroed (h : HeapRuns (fun _ => True) (heapStart ram beginAddr endAddr) s) (count size : U32)
    (hfits : (count * size).toNat + 3 < 2 ^ 32) :
    ∃ p s', Returns (fun fuel => s.heap.rtCalloc count size fuel) (p, s'.heap) ∧
      HeapRuns (fun _ => True) (heapStart ram beginAddr endAddr) s' ∧
      (∀ a k, s.live a = some k →
        s'.live a = some k ∧ ∀ i < k, s'.heap.ram (a + i) = s.heap.ram (a + i)) ∧
      (p = 0 → s' = s) ∧
      (p ≠ 0 → s.live p.toNat = none ∧
        s'.live = Function.update s.live p.toNat (some (rtAlign (count * size)).toNat) ∧
        count.toNat * size.toNat % 2 ^ 32 ≤ (rtAlign (count * size)).toNat ∧
        ∀ i < count.toNat * size.toNat % 2 ^ 32, s'.heap.ram (p.toNat + i) = 0) := by
  obtain ⟨⟨l, ho⟩, -⟩ := h.owned hroom
  have hproduct : (count * size).toNat = count.toNat * size.toNat % 2 ^ 32 := BitVec.toNat_mul ..
  have hround : (count * size).toNat ≤ (rtAlign (count * size)).toNat := by
    rw [toNat_rtAlign, if_pos hfits]
    omega
  obtain ⟨p, h₁, hcall, ⟨rfl, rfl⟩ | ⟨hne, hfresh, l₁, ho₁, hothers⟩⟩ := ho.rtMalloc (count * size)
  · exact ⟨0, s, hcall.map _, h, fun a k ha => ⟨ha, fun _ _ => rfl⟩, fun _ => rfl,
      fun hcond => absurd rfl hcond⟩
  have hrun := h.step (.malloc (count * size)) trivial trivial (hcall.exec_malloc hne)
  have hself : Function.update s.live p.toNat (some (rtAlign (count * size)).toNat) p.toNat =
      some (rtAlign (count * size)).toNat := Function.update_self ..
  refine ⟨p, _, ?_, hrun.fill hself (fun _ _ _ _ => trivial) (fun _ => 0) hround, fun a k ha => ?_,
    fun hcond => absurd hcond hne, fun _ => ⟨hfresh, rfl, hproduct ▸ hround, fun i hi => ?_⟩⟩
  · have hmap := hcall.map fun found =>
      (found.1, if found.1 ≠ 0 then found.2.rtMemset found.1 (count * size) else found.2)
    simp only [if_pos hne] at hmap
    exact hmap
  · have ha₁ := hothers.live a k ha fun htouch => htouch
    refine ⟨ha₁, fun i hi => ?_⟩
    rw [← hothers.payload a k ha (fun htouch => htouch) i hi]
    dsimp only
    refine if_neg fun hin => ?_
    rcases Nat.lt_trichotomy a p.toNat with hlow | rfl | hhigh
    · have := ho₁.apart ha₁ hself hlow
      omega
    · rw [hfresh] at ha
      cases ha
    · have := ho₁.apart hself ha₁ hhigh
      omega
  · dsimp only
    rw [if_pos ⟨by omega, by omega⟩]

omit hroom in
theorem calloc_zeroed_twenty : ∃ (s : HeapRun) (p : U32) (s' : HeapRun), s.live 0x20000010 = some 20 ∧
    Returns (fun fuel => s.heap.rtCalloc 3 5 fuel) (p, s'.heap) ∧
    (p = 0 ∧ s' = s ∨ s'.live p.toNat = some 16 ∧ ∀ i < 15, s'.heap.ram (p.toNat + i) = 0) := by
  obtain ⟨s, hrun, hheld⟩ := exists_live_twenty
  have hlive : s.live 0x20000010 = some 20 := congrFun hheld _
  obtain ⟨p, s', hreturns, -, -, hnone, hsome⟩ := calloc_zeroed (by decide) hrun 3 5 (by decide)
  refine ⟨s, p, s', hlive, hreturns, ?_⟩
  by_cases hp : p = 0
  · exact .inl ⟨hp, hnone hp⟩
  · obtain ⟨-, hlive', -, hram⟩ := hsome hp
    rw [hlive', Function.update_self]
    exact .inr ⟨rfl, hram⟩

end Resize

end LowPower
