import LowPower.Proof.Heap

/-!
# Runs of the heap

`Owned` ties the blocks in use to what the callers hold. Every step that a caller may make returns and
keeps it, with the blocks the step does not touch (`Owned.step`).

* `heap_sound`: in every state of a run no assertion can fail, and the blocks that are held lie apart.
* `heap_contents`: a block keeps its contents whatever the others do.
* `heap_drained`: when all is freed the heap is one free block.
-/

namespace LowPower

open Blocks

variable {h h' : Heap} {l pre post : List Block} {s s' : HeapRun} {call : HeapStep}

/-! ## Writes to payloads -/

/-- **A write to a payload** leaves the headers and the other payloads as they are. -/
theorem Linked.write {m : ℕ} (hl : Linked h (pre ++ ⟨m, true⟩ :: post))
    (hptr : h'.heapPtr = h.heapPtr) (hsize : h'.memSizeAligned = h.memSizeAligned)
    (hram : ∀ x, x < h.heapPtr.toNat + width 12 pre + 12 ∨
      h.heapPtr.toNat + width 12 pre + 12 + m ≤ x → h'.ram x = h.ram x) :
    Linked h' (pre ++ ⟨m, true⟩ :: post) ∧
      Keeps h h' (usedFrom 12 0 pre ++ usedFrom 12 (width 12 pre + 12 + m) post) := by
  have hr := hl.region
  have htiles := hl.tiles
  have hend := hl.lt_end
  have hat := hl.mem_at
  obtain ⟨-, -, hpost⟩ := chain_append.mp hl.chain
  rw [width_append, width_cons] at htiles
  rw [Nat.zero_add] at hpost
  dsimp only at htiles hend hpost
  have hother : ∀ q ≤ h.memSizeAligned.toNat + 12, q ≤ width 12 pre ∨ width 12 pre + 12 + m ≤ q →
      h'.mem (off q) = h.mem (off q) := by
    intro q hq hapart
    refine mem_congr hptr fun x hle hlt => hram x ?_
    rw [hr.addr_off hq] at hle hlt
    omega
  refine ⟨Linked.replace pre [⟨m, true⟩] [⟨m, true⟩] post hl hptr hsize rfl ?_ ?_ ?_ ?_ ?_, hptr, hsize,
    fun q n hmem i hi => hram _ ?_, fun x hx => hram x (by omega)⟩
  · intro b hb
    exact hl.sizes b (List.mem_append_right pre (List.mem_cons.mpr (.inl (List.mem_singleton.mp hb))))
  · intro q hq
    exact hother q (by omega) (.inl (by omega))
  · refine ⟨?_, trivial⟩
    rw [Link, hother _ (by omega) (.inl (Nat.le_refl _)), hat]
  · have hpos : width 12 pre + width 12 [⟨m, true⟩] = width 12 pre + 12 + m := by
      simp only [width_cons, width_nil]
      omega
    rw [hpos]
    refine chain_frame hpost fun q hq hlast => hother q (by omega) (.inr hq)
  · rw [hr.heapEnd_eq, hother _ (Nat.le_refl _) (.inr (by omega)), ← hr.heapEnd_eq]
    exact hl.heap_end
  · rcases List.mem_append.mp hmem with hmem | hmem
    · have := (usedFrom_bounds hmem).2
      omega
    · have := (usedFrom_bounds hmem).1
      omega

/-- The heap after a write to a payload. -/
theorem Laid.write {m : ℕ} (hl : Laid h (pre ++ ⟨m, true⟩ :: post)) {ram : Ram.Memory}
    (hram : ∀ x, x < h.heapPtr.toNat + width 12 pre + 12 ∨
      h.heapPtr.toNat + width 12 pre + 12 + m ≤ x → ram x = h.ram x) :
    Laid { h with ram := ram } (pre ++ ⟨m, true⟩ :: post) ∧
      Keeps h { h with ram := ram }
        (usedFrom 12 0 pre ++ usedFrom 12 (width 12 pre + 12 + m) post) := by
  have hptr : ({ h with ram := ram } : Heap).heapPtr = h.heapPtr := rfl
  obtain ⟨hlinked, hkeeps⟩ := hl.toLinked.write hptr rfl hram
  exact ⟨⟨hlinked, hl.pairs, hl.lfree, hl.usedMem, hl.maxMem⟩, hkeeps⟩

/-! ## What the callers hold -/

/-- The blocks in use are those that are held, each with room for what was granted. -/
structure Owned (s : HeapRun) (l : List Block) : Prop where
  laid : Laid s.heap l
  granted : ∀ a n, s.live a = some n →
    ∃ q m, (q, m) ∈ usedFrom 12 0 l ∧ a = s.heap.heapPtr.toNat + q + 12 ∧ n ≤ m
  held : ∀ q m, (q, m) ∈ usedFrom 12 0 l → (s.live (s.heap.heapPtr.toNat + q + 12)).isSome

/-- The steps that change a block: its own free, its own resizing, a write to its bytes. -/
def HeapStep.Touches (a n : ℕ) : HeapStep → Prop
  | malloc _ => False
  | free rmem => rmem.toNat = a
  | inPlace rmem _ => rmem.toNat = a
  | write x _ => a ≤ x ∧ x < a + n

/-- What a step leaves: the blocks it does not touch, and all outside of the region. -/
structure Others (call : HeapStep) (s s' : HeapRun) : Prop where
  heapPtr : s'.heap.heapPtr = s.heap.heapPtr
  memSize : s'.heap.memSizeAligned = s.heap.memSizeAligned
  live : ∀ a n, s.live a = some n → ¬call.Touches a n → s'.live a = some n
  payload : ∀ a n, s.live a = some n → ¬call.Touches a n →
    ∀ i < n, s'.heap.ram (a + i) = s.heap.ram (a + i)
  outside : ∀ x, x < s.heap.heapPtr.toNat ∨
    s.heap.heapPtr.toNat + s.heap.memSizeAligned.toNat + 24 ≤ x → s'.heap.ram x = s.heap.ram x

theorem Others.refl (call : HeapStep) (s : HeapRun) : Others call s s :=
  ⟨rfl, rfl, fun _ _ h _ => h, fun _ _ _ _ _ _ => rfl, fun _ _ => rfl⟩

/-- What a step that keeps payloads leaves. -/
theorem Owned.others (ho : Owned s l) {blocks : List (ℕ × ℕ)} (hkeeps : Keeps s.heap s'.heap blocks)
    (hlive : ∀ a n, s.live a = some n → ¬call.Touches a n → s'.live a = some n)
    (hblocks : ∀ q m, (q, m) ∈ usedFrom 12 0 l → (∃ n, s.live (s.heap.heapPtr.toNat + q + 12) = some n ∧
      ¬call.Touches (s.heap.heapPtr.toNat + q + 12) n) → ∃ k, m ≤ k ∧ (q, k) ∈ blocks) :
    Others call s s' := by
  refine ⟨hkeeps.heapPtr, hkeeps.memSize, hlive, fun a n ha htouch i hi => ?_, hkeeps.outside⟩
  obtain ⟨q, m, hmem, rfl, hn⟩ := ho.granted a n ha
  obtain ⟨k, hk, hblock⟩ := hblocks q m hmem ⟨n, ha, htouch⟩
  exact hkeeps.payload q k hblock i (by omega)

/-- **An allocation** grants a block that nobody holds. -/
theorem Owned.rtMalloc (ho : Owned s l) (size : U32) :
    ∃ p h', Returns (fun fuel => s.heap.rtMalloc size fuel) (p, h') ∧ (p = 0 ∧ h' = s.heap ∨
      p ≠ 0 ∧ s.live p.toNat = none ∧ ∃ l',
        Owned ⟨h', Function.update s.live p.toNat (some (rtAlign size).toNat)⟩ l' ∧
        Others (.malloc size) s
          ⟨h', Function.update s.live p.toNat (some (rtAlign size).toNat)⟩) := by
  cases hfit : s.heap.fit size l with
  | none => exact ⟨0, s.heap, ho.laid.malloc_none hfit, .inl ⟨rfl, rfl⟩⟩
  | some q =>
    obtain ⟨p, h', pre, n, post, m, rest, hmalloc, hp, rfl, hq, hm, hlaid, hrest, -, hkeeps, -⟩ :=
      ho.laid.malloc_some hfit
    have hne : p ≠ 0 := by
      rintro rfl
      have hzero : (0 : U32).toNat = 0 := rfl
      omega
    have hptr := hkeeps.heapPtr
    have hbefore : usedFrom 12 0 (pre ++ ⟨n, false⟩ :: post) =
        usedFrom 12 0 pre ++ usedFrom 12 (q + 12 + n) post := by
      rw [usedFrom_append, usedFrom_cons_free, Nat.zero_add, ← hq]
    have hafter : usedFrom 12 0 (pre ++ ⟨m, true⟩ :: rest) =
        usedFrom 12 0 pre ++ (q, m) :: usedFrom 12 (q + 12 + n) post := by
      rw [usedFrom_append, usedFrom_cons_used, Nat.zero_add, ← hq, hrest]
    have hsub : ∀ q' m', (q', m') ∈ usedFrom 12 0 (pre ++ ⟨n, false⟩ :: post) →
        q' ≠ q ∧ (q', m') ∈ usedFrom 12 0 (pre ++ ⟨m, true⟩ :: rest) := by
      intro q' m' hmem
      rw [hbefore, List.mem_append] at hmem
      rw [hafter, List.mem_append, List.mem_cons]
      rcases hmem with hmem | hmem
      · have := (usedFrom_bounds hmem).2
        exact ⟨by omega, .inl hmem⟩
      · have := (usedFrom_bounds hmem).1
        exact ⟨by omega, .inr (.inr hmem)⟩
    have hnew : (q, m) ∈ usedFrom 12 0 (pre ++ ⟨m, true⟩ :: rest) := by
      rw [hafter]
      exact List.mem_append_right _ List.mem_cons_self
    have hfresh : s.live p.toNat = none := by
      rw [Option.eq_none_iff_forall_ne_some]
      intro k hk
      obtain ⟨q', m', hmem, heq, -⟩ := ho.granted p.toNat k hk
      have := (hsub q' m' hmem).1
      omega
    refine ⟨p, h', hmalloc, .inr ⟨hne, hfresh, pre ++ ⟨m, true⟩ :: rest, ⟨hlaid, ?_, ?_⟩,
      ho.others hkeeps ?_ ?_⟩⟩
    · intro a k ha
      dsimp only at ha ⊢
      rw [hptr]
      by_cases hap : a = p.toNat
      · rw [hap, Function.update_self] at ha
        obtain rfl := Option.some.inj ha
        exact ⟨q, m, hnew, hap.trans hp, by omega⟩
      · rw [Function.update_of_ne hap] at ha
        obtain ⟨q', m', hmem, heq, hk⟩ := ho.granted a k ha
        exact ⟨q', m', (hsub q' m' hmem).2, heq, hk⟩
    · intro q' m' hmem
      dsimp only
      rw [hptr]
      by_cases hap : s.heap.heapPtr.toNat + q' + 12 = p.toNat
      · rw [hap, Function.update_self]
        rfl
      · rw [Function.update_of_ne hap]
        refine ho.held q' m' ?_
        rw [hafter, List.mem_append, List.mem_cons] at hmem
        rw [hbefore, List.mem_append]
        rcases hmem with hmem | hmem | hmem
        · exact .inl hmem
        · have := (Prod.mk.inj hmem).1
          omega
        · exact .inr hmem
    · intro a k ha _
      dsimp only
      obtain ⟨q', m', hmem, heq, -⟩ := ho.granted a k ha
      have := (hsub q' m' hmem).1
      rw [Function.update_of_ne (by omega)]
      exact ha
    · intro q' m' hmem _
      exact ⟨m', Nat.le_refl m', (hsub q' m' hmem).2⟩

/-- The blocks beside one that is held. -/
theorem Owned.cut (ho : Owned s l) {a n : ℕ} (ha : s.live a = some n) :
    ∃ pre m post, l = pre ++ ⟨m, true⟩ :: post ∧ n ≤ m ∧
      a = s.heap.heapPtr.toNat + width 12 pre + 12 := by
  obtain ⟨q, m, hmem, heq, hn⟩ := ho.granted a n ha
  obtain ⟨pre, post, hl, hq⟩ := exists_of_mem_usedFrom hmem
  rw [Nat.zero_add] at hq
  exact ⟨pre, m, post, hl, hn, hq ▸ heq⟩

/-- **A free** gives up the block that is held. -/
theorem Owned.rtFree (ho : Owned s l) {rmem : U32} {n : ℕ} (hn : s.live rmem.toNat = some n) :
    ∃ h' l', s.heap.rtFree rmem = some h' ∧
      Owned ⟨h', Function.update s.live rmem.toNat none⟩ l' ∧
      Others (.free rmem) s ⟨h', Function.update s.live rmem.toNat none⟩ := by
  obtain ⟨pre, m, post, rfl, -, hrmem⟩ := ho.cut hn
  obtain ⟨h', l', hfree, hlaid, -, hused, hkeeps⟩ := ho.laid.free hrmem
  have hptr := hkeeps.heapPtr
  have hcut : ∀ q k, (q, k) ∈ usedFrom 12 0 (pre ++ ⟨m, true⟩ :: post) ↔
      (q = width 12 pre ∧ k = m) ∨ (q, k) ∈ usedFrom 12 0 l' := by
    intro q k
    rw [mem_usedFrom_cut, hused, Nat.zero_add]
  have hbeside : ∀ q k, (q, k) ∈ usedFrom 12 0 l' → q ≠ width 12 pre := by
    intro q k hmem
    rw [hused, ← Nat.zero_add (width 12 pre)] at hmem
    rw [← Nat.zero_add (width 12 pre)]
    exact ne_of_mem_beside (by decide) hmem
  refine ⟨h', l', hfree, ⟨hlaid, ?_, ?_⟩, ho.others hkeeps ?_ ?_⟩
  · intro a k ha
    dsimp only at ha ⊢
    rw [hptr]
    by_cases hap : a = rmem.toNat
    · rw [hap, Function.update_self] at ha
      cases ha
    · rw [Function.update_of_ne hap] at ha
      obtain ⟨q, k', hmem, heq, hk⟩ := ho.granted a k ha
      rcases (hcut q k').mp hmem with ⟨rfl, -⟩ | hmem
      · exact absurd (heq.trans hrmem.symm) hap
      · exact ⟨q, k', hmem, heq, hk⟩
  · intro q k hmem
    dsimp only
    have := hbeside q k hmem
    rw [hptr, Function.update_of_ne (by omega)]
    exact ho.held q k ((hcut q k).mpr (.inr hmem))
  · intro a k ha htouch
    dsimp only
    rw [Function.update_of_ne fun heq => htouch heq.symm]
    exact ha
  · rintro q k hmem ⟨j, -, htouch⟩
    rcases (hcut q k).mp hmem with ⟨rfl, -⟩ | hmem
    · exact absurd hrmem htouch
    · exact ⟨k, Nat.le_refl k, hmem⟩

/-- A block that is held gets another size. -/
theorem Owned.resized {m k : ℕ} {l' : List Block} (ho : Owned s (pre ++ ⟨m, true⟩ :: post))
    {rmem : U32} (newsize : U32) (hrmem : rmem.toNat = s.heap.heapPtr.toNat + width 12 pre + 12)
    (hlaid : Laid h' l') (hkeeps : Keeps s.heap h' (usedFrom 12 0 l'))
    (hused : ∀ q j, (q, j) ∈ usedFrom 12 0 l' ↔ (q = width 12 pre ∧ j = k) ∨
      (q, j) ∈ usedFrom 12 0 pre ++ usedFrom 12 (width 12 pre + 12 + m) post) :
    Owned ⟨h', Function.update s.live rmem.toNat (some k)⟩ l' ∧
      Others (.inPlace rmem newsize) s ⟨h', Function.update s.live rmem.toNat (some k)⟩ := by
  have hptr := hkeeps.heapPtr
  have hcut : ∀ q j, (q, j) ∈ usedFrom 12 0 (pre ++ ⟨m, true⟩ :: post) ↔ (q = width 12 pre ∧ j = m) ∨
      (q, j) ∈ usedFrom 12 0 pre ++ usedFrom 12 (width 12 pre + 12 + m) post := by
    intro q j
    rw [mem_usedFrom_cut, Nat.zero_add]
  refine ⟨⟨hlaid, ?_, ?_⟩, ho.others hkeeps ?_ ?_⟩
  · intro a n ha
    dsimp only at ha ⊢
    rw [hptr]
    by_cases hap : a = rmem.toNat
    · rw [hap, Function.update_self] at ha
      obtain rfl := Option.some.inj ha
      exact ⟨width 12 pre, k, (hused _ _).mpr (.inl ⟨rfl, rfl⟩), hap.trans hrmem, Nat.le_refl k⟩
    · rw [Function.update_of_ne hap] at ha
      obtain ⟨q, j, hmem, heq, hn⟩ := ho.granted a n ha
      rcases (hcut q j).mp hmem with ⟨rfl, -⟩ | hmem
      · exact absurd (heq.trans hrmem.symm) hap
      · exact ⟨q, j, (hused q j).mpr (.inr hmem), heq, hn⟩
  · intro q j hmem
    dsimp only
    rw [hptr]
    by_cases hap : s.heap.heapPtr.toNat + q + 12 = rmem.toNat
    · rw [hap, Function.update_self]
      rfl
    · rw [Function.update_of_ne hap]
      rcases (hused q j).mp hmem with ⟨rfl, -⟩ | hmem
      · exact absurd hrmem.symm hap
      · exact ho.held q j ((hcut q j).mpr (.inr hmem))
  · intro a n ha htouch
    dsimp only
    rw [Function.update_of_ne fun heq => htouch heq.symm]
    exact ha
  · rintro q j hmem ⟨n, -, htouch⟩
    rcases (hcut q j).mp hmem with ⟨rfl, -⟩ | hmem
    · exact absurd hrmem htouch
    · exact ⟨j, Nat.le_refl j, (hused q j).mpr (.inr hmem)⟩

/-- **A resizing in place** keeps the block, or leaves all as it is. -/
theorem Owned.reallocInPlace (ho : Owned s l) {rmem newsize : U32} {n : ℕ}
    (hn : s.live rmem.toNat = some n) (hne : newsize ≠ 0) (hle : newsize ≤ s.heap.memSizeAligned)
    (hdvd : 4 ∣ newsize.toNat) :
    ∃ grow h', s.heap.reallocInPlace rmem newsize = some (grow, h') ∧
      ((grow = none ∧ ∃ l',
        Owned ⟨h', Function.update s.live rmem.toNat (some newsize.toNat)⟩ l' ∧
        Others (.inPlace rmem newsize) s
          ⟨h', Function.update s.live rmem.toNat (some newsize.toNat)⟩ ∧
        ∀ i < min n newsize.toNat, h'.ram (rmem.toNat + i) = s.heap.ram (rmem.toNat + i)) ∨
      ∃ m, grow = some (off m) ∧ h' = s.heap ∧ n ≤ m ∧ m ≤ s.heap.memSizeAligned.toNat) := by
  have hfits := ho.laid.region.fits
  obtain ⟨pre, m, post, rfl, hm, hrmem⟩ := ho.cut hn
  have hend := ho.laid.lt_end
  dsimp only at hend
  rw [BitVec.le_def] at hle
  by_cases hsmall : newsize.toNat + 24 < m
  · obtain ⟨h', l', hcall, hlaid, -, hused, hkeeps⟩ := ho.laid.shrink hrmem hdvd hne hsmall
    have hmem : ∀ q j, (q, j) ∈ usedFrom 12 0 l' ↔ (q = width 12 pre ∧ j = newsize.toNat) ∨
        (q, j) ∈ usedFrom 12 0 pre ++ usedFrom 12 (width 12 pre + 12 + m) post := by
      intro q j
      have hlast : usedFrom 12 0 (pre ++ [⟨newsize.toNat, true⟩]) =
          usedFrom 12 0 pre ++ [(width 12 pre, newsize.toNat)] := by
        rw [usedFrom_append, Nat.zero_add]
        rfl
      rw [hused, hlast, List.append_assoc, List.mem_append, List.singleton_append, List.mem_cons,
        Prod.mk.injEq, List.mem_append]
      exact or_left_comm
    obtain ⟨howned, hothers⟩ := ho.resized newsize hrmem hlaid hkeeps hmem
    refine ⟨none, h', hcall, .inl ⟨rfl, l', howned, hothers, fun i hi => ?_⟩⟩
    have hpayload := hkeeps.payload _ _ ((hmem _ _).mpr (.inl ⟨rfl, rfl⟩)) i (by omega)
    rw [← hrmem] at hpayload
    exact hpayload
  · have hcall := ho.laid.toLinked.inPlace hrmem (by omega) (Nat.le_of_not_lt hsmall)
    by_cases hsame : newsize.toNat = m
    · obtain ⟨howned, hothers⟩ := ho.resized newsize hrmem ho.laid (Keeps.refl _ _)
        fun q j => by rw [mem_usedFrom_cut, Nat.zero_add]
      rw [if_pos hsame] at hcall
      exact ⟨none, s.heap, hcall, .inl ⟨rfl, _, hsame ▸ howned, hsame ▸ hothers, fun _ _ => rfl⟩⟩
    · rw [if_neg hsame] at hcall
      exact ⟨some (off m), s.heap, hcall, .inr ⟨m, rfl, rfl, hm, by omega⟩⟩

/-- **A write to a block that is held** leaves the others. -/
theorem Owned.write (ho : Owned s l) {a p n : ℕ} (v : U8) (hlive : s.live p = some n) (hp : p ≤ a)
    (ha : a < p + n) :
    ∃ s' l', Returns (fun fuel => (HeapStep.write a v).exec fuel s) s' ∧ Owned s' l' ∧
      Others (.write a v) s s' := by
  obtain ⟨pre, m, post, rfl, hn, hpre⟩ := ho.cut hlive
  have hram : ∀ x, x < s.heap.heapPtr.toNat + width 12 pre + 12 ∨
      s.heap.heapPtr.toNat + width 12 pre + 12 + m ≤ x →
        Function.update s.heap.ram a v x = s.heap.ram x := by
    intro x hx
    have hne : x ≠ a := by omega
    rw [Function.update_of_ne hne]
  obtain ⟨hlaid, hkeeps⟩ := ho.laid.write hram
  refine ⟨⟨{ s.heap with ram := Function.update s.heap.ram a v }, s.live⟩, _, Returns.of_eq fun _ => rfl,
    ⟨hlaid, ho.granted, ho.held⟩, rfl, rfl, fun _ _ h _ => h, ?_, hkeeps.outside⟩
  intro b k _ htouch i hi
  have hne : b + i ≠ a := by
    rintro rfl
    exact htouch ⟨Nat.le_add_right b i, Nat.add_lt_add_left hi b⟩
  dsimp only
  rw [Function.update_of_ne hne]

/-- The step of a `rt_malloc` that returns a block. -/
theorem Returns.exec_malloc {size p : U32} {heap : Heap}
    (hcall : Returns (fun fuel => s.heap.rtMalloc size fuel) (p, heap)) (hne : p ≠ 0) :
    Returns (fun fuel => (HeapStep.malloc size).exec fuel s)
      ⟨heap, Function.update s.live p.toNat (some (rtAlign size).toNat)⟩ := by
  have hexec := hcall.map fun found => HeapRun.mk found.2
    (if found.1 = 0 then s.live else Function.update s.live found.1.toNat (some (rtAlign size).toNat))
  simp only [if_neg hne] at hexec
  exact hexec

/-- **Every step that a caller may make** returns. -/
theorem Owned.step (ho : Owned s l) (hallowed : call.Allowed s) :
    ∃ s' l', Returns (fun fuel => call.exec fuel s) s' ∧ Owned s' l' ∧ Others call s s' := by
  cases call with
  | malloc size =>
    obtain ⟨p, h', hcall, ⟨rfl, rfl⟩ | ⟨hne, -, l', ho', hothers⟩⟩ := ho.rtMalloc size
    · exact ⟨s, l, hcall.map _, ho, Others.refl _ s⟩
    · exact ⟨_, l', hcall.exec_malloc hne, ho', hothers⟩
  | free rmem =>
    by_cases hne : rmem = 0
    · have hfree : s.heap.rtFree rmem = some s.heap := if_pos hne
      refine ⟨s, l, Returns.of_eq fun fuel => ?_, ho, Others.refl _ s⟩
      rw [HeapStep.exec, hfree, Option.map_some, if_pos hne]
    · obtain ⟨n, hn⟩ := Option.isSome_iff_exists.mp (hallowed hne)
      obtain ⟨h', l', hfree, ho', hothers⟩ := ho.rtFree hn
      refine ⟨_, l', Returns.of_eq fun fuel => ?_, ho', hothers⟩
      rw [HeapStep.exec, hfree, Option.map_some, if_neg hne]
  | inPlace rmem newsize =>
    obtain ⟨hlive, hne, hle, size, rfl⟩ := hallowed
    obtain ⟨n, hn⟩ := Option.isSome_iff_exists.mp hlive
    obtain ⟨grow, h', hcall, ⟨rfl, l', ho', hothers, -⟩ | ⟨m, rfl, rfl, -, -⟩⟩ :=
      ho.reallocInPlace hn hne hle (four_dvd_rtAlign size)
    · refine ⟨_, l', Returns.of_eq fun fuel => ?_, ho', hothers⟩
      simp only [HeapStep.exec, hcall, Option.map_some, if_true]
    · refine ⟨s, l, Returns.of_eq fun fuel => ?_, ho, Others.refl _ s⟩
      simp only [HeapStep.exec, hcall, Option.map_some, reduceCtorEq, if_false]
  | write a v =>
    obtain ⟨p, n, hlive, hp, ha⟩ := hallowed
    exact ho.write v hlive hp ha

/-- Blocks that are held do not overlap. -/
theorem Owned.apart (ho : Owned s l) {a b n m : ℕ} (ha : s.live a = some n) (hb : s.live b = some m)
    (hab : a < b) : a + n + 12 ≤ b := by
  obtain ⟨q, k, hq, rfl, hn⟩ := ho.granted a n ha
  obtain ⟨pre, j, post, rfl, -, rfl⟩ := ho.cut hb
  have hapart := usedFrom_apart hq
  omega

/-- An allocation from a heap of one free block. -/
theorem Laid.malloc_single (hl : Laid h [⟨h.memSizeAligned.toNat, false⟩]) {size : U32} (hne : size ≠ 0)
    (hsmall : max 12 (rtAlign size).toNat < h.memSizeAligned.toNat) :
    ∃ h', Returns (fun fuel => h.rtMalloc size fuel) (h.heapPtr + 12, h') := by
  have hfit : h.fit size [⟨h.memSizeAligned.toNat, false⟩] = some 0 := by
    unfold Heap.fit
    rw [if_neg, firstFit, if_pos ⟨rfl, by dsimp only; omega, by omega⟩]
    rintro (hzero | hlarge)
    · exact hne hzero
    · rw [BitVec.lt_def] at hlarge
      omega
  obtain ⟨p, h', -, -, -, -, -, hreturns, hp, -⟩ := hl.malloc_some hfit
  have hptr : p = h.heapPtr + 12 := by
    have hfits := hl.region.fits
    have hadd : (h.heapPtr + 12).toNat = h.heapPtr.toNat + 12 := toNat_add_twelve (by omega)
    exact BitVec.eq_of_toNat_eq (by rw [hp]; omega)
  exact ⟨h', hptr ▸ hreturns⟩

/-! ## Runs -/

theorem HeapRuns.mono {kind kind' : HeapStep → Prop} (h : HeapRuns kind s s')
    (himp : ∀ call, kind call → kind' call) : HeapRuns kind' s s' := by
  induction h with
  | refl => exact .refl
  | step _ call hkind hallowed hexec ih => exact ih.step call (himp call hkind) hallowed hexec

/-- A block that no step of a run touches. -/
theorem HeapRuns.contents {a n : ℕ} (h : HeapRuns (fun call => ¬call.Touches a n) s s')
    (ho : Owned s l) (hlive : s.live a = some n) :
    (∃ l', Owned s' l') ∧ s'.live a = some n ∧
      ∀ i < n, s'.heap.ram (a + i) = s.heap.ram (a + i) := by
  induction h with
  | refl => exact ⟨⟨l, ho⟩, hlive, fun _ _ => rfl⟩
  | step _ call htouch hallowed hexec ih =>
    obtain ⟨⟨l', ho'⟩, hlive', hram⟩ := ih
    obtain ⟨s'', l'', hreturns, ho'', hothers⟩ := ho'.step hallowed
    obtain rfl := hexec.unique hreturns
    refine ⟨⟨l'', ho''⟩, hothers.live a n hlive' htouch, fun i hi => ?_⟩
    rw [hothers.payload a n hlive' htouch i hi, hram i hi]

section Runs

variable {ram : Ram.Memory} {beginAddr endAddr : U32} {kind : HeapStep → Prop}
  (hroom : (rtAlign beginAddr).toNat + 36 ≤ (rtAlignDown endAddr).toNat)

include hroom

theorem heapStart_owned : ∃ l, Owned (heapStart ram beginAddr endAddr) l := by
  obtain ⟨-, -, hlaid, -⟩ := rtSystemHeapInit_laid (h := ⟨0, 0, 0, 0, 0, ram⟩) rfl rfl hroom
  refine ⟨_, hlaid, ?_, ?_⟩
  · intro a n ha
    cases ha
  · intro q m hmem
    cases hmem

/-- The first allocation of a run. -/
theorem heapStart_malloc {size : U32} (hne : size ≠ 0)
    (hsmall : (rtAlign beginAddr).toNat + 24 + max 12 (rtAlign size).toNat < (rtAlignDown endAddr).toNat) :
    ∃ heap, HeapRuns (fun _ => True) (heapStart ram beginAddr endAddr)
      ⟨heap, Function.update (fun _ => none) ((rtAlign beginAddr).toNat + 12)
        (some (rtAlign size).toNat)⟩ := by
  obtain ⟨hptr, hsize, hlaid, -⟩ := rtSystemHeapInit_laid (h := ⟨0, 0, 0, 0, 0, ram⟩) rfl rfl hroom
  obtain ⟨heap, hcall⟩ := hlaid.malloc_single hne (by omega)
  have hadd : (rtAlign beginAddr + 12).toNat = (rtAlign beginAddr).toNat + 12 := by
    have hlt := (rtAlignDown endAddr).isLt
    exact toNat_add_twelve (by omega)
  rw [hptr] at hcall
  have hnonzero : rtAlign beginAddr + 12 ≠ 0 := by
    intro hzero
    rw [hzero] at hadd
    have hnat : (0 : U32).toNat = 0 := rfl
    omega
  have hstep : Returns (fun fuel => (heapStart ram beginAddr endAddr).heap.rtMalloc size fuel)
      (rtAlign beginAddr + 12, heap) := hcall
  have hexec := hstep.exec_malloc hnonzero
  rw [hadd] at hexec
  exact ⟨heap, HeapRuns.refl.step (.malloc size) trivial trivial hexec⟩

omit hroom in
/-- A run over `[0x20000001, 0x20000103)` in which 20 bytes are held. -/
theorem exists_live_twenty : ∃ s, HeapRuns (fun _ => True)
    (heapStart (fun _ => 0) 0x20000001 0x20000103) s ∧
      s.live = Function.update (fun _ => none) 0x20000010 (some 20) := by
  have hroom : (rtAlign 0x20000001).toNat + 36 ≤ (rtAlignDown 0x20000103).toNat := by decide
  have hne : (20 : U32) ≠ 0 := by decide
  obtain ⟨heap, hrun⟩ := heapStart_malloc hroom hne (by decide)
  exact ⟨_, hrun, rfl⟩

/-- The region and what lies outside of it, in every state of a run. -/
theorem HeapRuns.owned (h : HeapRuns kind (heapStart ram beginAddr endAddr) s) :
    (∃ l, Owned s l) ∧ s.heap.heapPtr = rtAlign beginAddr ∧
      s.heap.memSizeAligned.toNat = (rtAlignDown endAddr).toNat - (rtAlign beginAddr).toNat - 24 ∧
      ∀ x, x < (rtAlign beginAddr).toNat ∨ (rtAlignDown endAddr).toNat ≤ x → s.heap.ram x = ram x := by
  induction h with
  | refl =>
    obtain ⟨hptr, hsize, -, hout⟩ := rtSystemHeapInit_laid (h := ⟨0, 0, 0, 0, 0, ram⟩) rfl rfl hroom
    exact ⟨heapStart_owned hroom, hptr, hsize, hout⟩
  | step _ call _ hallowed hexec ih =>
    obtain ⟨⟨l, ho⟩, hptr, hsize, hout⟩ := ih
    obtain ⟨s', l', hreturns, ho', hothers⟩ := ho.step hallowed
    obtain rfl := hexec.unique hreturns
    refine ⟨⟨l', ho'⟩, hothers.heapPtr.trans hptr, ?_, fun x hx => ?_⟩
    · rw [hothers.memSize, hsize]
    · rw [hothers.outside x ?_, hout x hx]
      rw [hptr, hsize]
      omega

/-- **The heap of every run**: every call that a caller may make returns, so no assertion fails. The
blocks that are held are aligned, lie in the region with their headers, and do not overlap. `used_mem`
counts them with their headers, and nothing outside of the region is ever written. -/
theorem heap_sound (h : HeapRuns (fun _ => True) (heapStart ram beginAddr endAddr) s) :
    (∀ call : HeapStep, call.Allowed s → ∃ s', Returns (fun fuel => call.exec fuel s) s') ∧
      (∀ a n, s.live a = some n → 4 ∣ a ∧ (rtAlign beginAddr).toNat + 12 ≤ a ∧
        a + n + 12 ≤ (rtAlignDown endAddr).toNat) ∧
      (∀ a b n m, s.live a = some n → s.live b = some m → a < b → a + n + 12 ≤ b) ∧
      (∃ l, Laid s.heap l ∧
        (∀ a, (s.live a).isSome ↔ ∃ q m, (q, m) ∈ usedFrom 12 0 l ∧
          a = s.heap.heapPtr.toNat + q + 12) ∧
        s.heap.usedMem.toNat = ((usedFrom 12 0 l).map fun block => 12 + block.2).sum ∧
        s.heap.usedMem.toNat ≤ s.heap.maxMem.toNat) ∧
      ∀ x, x < (rtAlign beginAddr).toNat ∨ (rtAlignDown endAddr).toNat ≤ x → s.heap.ram x = ram x := by
  obtain ⟨⟨l, ho⟩, hptr, hsize, hout⟩ := h.owned hroom
  have hfits := ho.laid.region.fits
  refine ⟨fun call hallowed => ?_, fun a n ha => ?_, fun a b n m ha hb hab => ?_,
    ⟨l, ho.laid, fun a => ?_, ?_, ?_⟩, hout⟩
  · obtain ⟨s', l', hreturns, -⟩ := ho.step hallowed
    exact ⟨s', hreturns⟩
  · obtain ⟨pre, m, post, rfl, hn, rfl⟩ := ho.cut ha
    have hend := ho.laid.lt_end
    have hbase := ho.laid.region.dvd_base
    have hwidth : 4 ∣ width 12 pre :=
      dvd_width (by decide) fun c hc => (ho.laid.sizes c (List.mem_append_left _ hc)).1
    dsimp only at hend
    rw [← hptr]
    rw [hptr] at hfits hbase
    rw [hptr]
    omega
  · exact ho.apart ha hb hab
  · constructor
    · intro hsome
      obtain ⟨n, hn⟩ := Option.isSome_iff_exists.mp hsome
      obtain ⟨q, m, hmem, heq, -⟩ := ho.granted a n hn
      exact ⟨q, m, hmem, heq⟩
    · rintro ⟨q, m, hmem, rfl⟩
      exact ho.held q m hmem
  · rw [ho.laid.usedMem]
    exact usedWidth_eq_sum
  · rw [ho.laid.usedMem]
    exact ho.laid.maxMem.1

omit hroom in
theorem heap_sound_twenty : ∃ s s', s.live 0x20000010 = some 20 ∧
    Returns (fun fuel => (HeapStep.free 0x20000010).exec fuel s) s' ∧
    ∃ l, Laid s.heap l ∧ s.heap.usedMem.toNat =
      ((usedFrom 12 0 l).map fun block => 12 + block.2).sum := by
  obtain ⟨s, hrun, hheld⟩ := exists_live_twenty
  have hlive : s.live 0x20000010 = some 20 := congrFun hheld _
  obtain ⟨hcalls, -, -, ⟨l, hlaid, -, hused, -⟩, -⟩ := heap_sound (by decide) hrun
  obtain ⟨s', hreturns⟩ := hcalls (.free 0x20000010) fun _ => Option.isSome_iff_exists.mpr ⟨20, hlive⟩
  exact ⟨s, s', hlive, hreturns, l, hlaid, hused⟩

/-- **A block belongs to its holder**: whatever the others do, it stays granted with its contents until
its holder frees or resizes it or writes to it. -/
theorem heap_contents (h : HeapRuns (fun _ => True) (heapStart ram beginAddr endAddr) s) {a n : ℕ}
    (hlive : s.live a = some n) (h' : HeapRuns (fun call => ¬call.Touches a n) s s') :
    s'.live a = some n ∧ ∀ i < n, s'.heap.ram (a + i) = s.heap.ram (a + i) := by
  obtain ⟨⟨l, ho⟩, -⟩ := h.owned hroom
  exact (h'.contents ho hlive).2

omit hroom in
theorem heap_contents_twenty : ∃ s s', s.live 0x20000010 = some 20 ∧
    Returns (fun fuel => (HeapStep.malloc 8).exec fuel s) s' ∧ s'.live 0x20000010 = some 20 ∧
    s'.heap.ram 0x20000010 = s.heap.ram 0x20000010 := by
  obtain ⟨s, hrun, hheld⟩ := exists_live_twenty
  have hlive : s.live 0x20000010 = some 20 := congrFun hheld _
  obtain ⟨⟨l, ho⟩, -⟩ := hrun.owned (by decide)
  have hallowed : (HeapStep.malloc 8).Allowed s := trivial
  obtain ⟨s', -, hreturns, -⟩ := ho.step hallowed
  obtain ⟨hlive', hram⟩ := heap_contents (by decide) hrun hlive
    (HeapRuns.refl.step (.malloc 8) (fun htouch => htouch) trivial hreturns)
  exact ⟨s, s', hlive, hreturns, hlive', hram 0 (by decide)⟩

/-- **When all is freed** the heap is one free block again, and nothing counts as used. The next
allocation, rounded up, gets its start, but never all of it. -/
theorem heap_drained (h : HeapRuns (fun _ => True) (heapStart ram beginAddr endAddr) s)
    (hnone : ∀ a, s.live a = none) :
    s.heap.usedMem = 0 ∧ s.heap.lfree = 0 ∧
      Laid s.heap [⟨s.heap.memSizeAligned.toNat, false⟩] ∧
      ∀ size : U32,
        if size ≠ 0 ∧ max 12 (rtAlign size).toNat < s.heap.memSizeAligned.toNat then
          ∃ h', Returns (fun fuel => s.heap.rtMalloc size fuel) (s.heap.heapPtr + 12, h')
        else Returns (fun fuel => s.heap.rtMalloc size fuel) (0, s.heap) := by
  obtain ⟨⟨l, ho⟩, -, -⟩ := h.owned hroom
  have hused : usedFrom 12 0 l = [] := by
    rw [List.eq_nil_iff_forall_not_mem]
    rintro ⟨q, m⟩ hmem
    have hsome := ho.held q m hmem
    rw [hnone] at hsome
    cases hsome
  have htiles := ho.laid.tiles
  have hlaid := ho.laid
  obtain ⟨n, rfl⟩ := eq_single_of_usedFrom hused ho.laid.pairs (by
    rintro rfl
    rw [width_nil] at htiles
    omega)
  have hn : n = s.heap.memSizeAligned.toNat := by
    simp only [width_cons, width_nil] at htiles
    omega
  subst hn
  refine ⟨BitVec.eq_of_toNat_eq hlaid.usedMem, BitVec.eq_of_toNat_eq hlaid.lfree, hlaid,
    fun size => ?_⟩
  split
  · rename_i hsmall
    exact hlaid.malloc_single hsmall.1 hsmall.2
  · rename_i hlarge
    refine hlaid.malloc_none ?_
    unfold Heap.fit
    split
    · rfl
    · rename_i hsome
      rw [not_or] at hsome
      have hnot : ¬max 12 (rtAlign size).toNat < s.heap.memSizeAligned.toNat := fun hlt =>
        hlarge ⟨hsome.1, hlt⟩
      exact firstFit_of_limit (by omega)

omit hroom in
/-- 20 bytes are taken and freed; then 228 bytes, the whole heap, are not granted, and 224 are. -/
theorem heap_drained_twenty : ∃ s s' heap, s.live 0x20000010 = some 20 ∧
    Returns (fun fuel => (HeapStep.free 0x20000010).exec fuel s) s' ∧ s'.heap.usedMem = 0 ∧
    Returns (fun fuel => s'.heap.rtMalloc 228 fuel) (0, s'.heap) ∧
    Returns (fun fuel => s'.heap.rtMalloc 224 fuel) (0x20000010, heap) := by
  obtain ⟨s, hrun, hheld⟩ := exists_live_twenty
  have hroom : (rtAlign 0x20000001).toNat + 36 ≤ (rtAlignDown 0x20000103).toNat := by decide
  have hlive : s.live (0x20000010 : U32).toNat = some 20 := congrFun hheld _
  obtain ⟨⟨l, ho⟩, -⟩ := hrun.owned hroom
  obtain ⟨h', -, hfree, -⟩ := ho.rtFree hlive
  have hexec : Returns (fun fuel => (HeapStep.free 0x20000010).exec fuel s)
      ⟨h', Function.update s.live (0x20000010 : U32).toNat none⟩ :=
    Returns.of_eq fun _ => by rw [HeapStep.exec, hfree, Option.map_some, if_neg (by decide)]
  have hrun' := hrun.step (.free 0x20000010) trivial
    (fun _ => Option.isSome_iff_exists.mpr ⟨20, hlive⟩) hexec
  have hnone : ∀ a, Function.update s.live (0x20000010 : U32).toNat none a = none := by
    intro a
    rw [hheld]
    exact congrFun ((Function.update_idem _ _ _).trans (Function.update_eq_self _ _)) a
  obtain ⟨hused, -, -, hmalloc⟩ := heap_drained hroom hrun' hnone
  obtain ⟨-, hptr, hsize, -⟩ := hrun'.owned hroom
  have hwhole := hmalloc 228
  have hrest := hmalloc 224
  rw [hsize, if_neg (by decide)] at hwhole
  rw [hsize, hptr, if_pos (by decide)] at hrest
  obtain ⟨heap, hrest⟩ := hrest
  exact ⟨s, _, heap, hlive, hexec, hused, hwhole, hrest⟩

end Runs

end LowPower
