import LowPower.Lib.Loop
import LowPower.Lib.Ram
import LowPower.Spec.Lpms

/-!
# The heap

`mem.c` keeps the heap as blocks that follow one another, each behind a `struct heap_mem` with the
offsets of its neighbours. The memory is all of its bytes, and every field is read from them and
written to them. The semaphore of the heap makes one step of what lies between its take and its
release. `none` is a failed `RT_ASSERT`, or a loop that has used up its fuel.
-/

namespace LowPower

abbrev rtAlignSize : U32 := 4

/-- `RT_ALIGN(size, RT_ALIGN_SIZE)` and `RT_ALIGN_DOWN(size, RT_ALIGN_SIZE)`. -/
def rtAlign (size : U32) : U32 := (size + (rtAlignSize - 1)) &&& ~~~(rtAlignSize - 1)

def rtAlignDown (size : U32) : U32 := size &&& ~~~(rtAlignSize - 1)

abbrev heapMagic : U16 := 0x1ea0
abbrev minSize : U32 := 12
abbrev minSizeAligned : U32 := 12
abbrev sizeofStructMem : U32 := 12

/-- `struct heap_mem`. -/
structure HeapMem where
  magic : U16
  used : U16
  next : U32
  prev : U32

/-- The variables of `mem.c` and the memory. `lfree` is an offset from `heap_ptr`. -/
structure Heap where
  heapPtr : U32
  memSizeAligned : U32
  lfree : U32
  usedMem : U32
  maxMem : U32
  ram : Ram.Memory

namespace Heap

variable (h : Heap)

/-- `&heap_ptr[ptr]`. -/
def addr (ptr : U32) : ℕ := (h.heapPtr + ptr).toNat

/-- The `struct heap_mem` at an offset. -/
def mem (ptr : U32) : HeapMem where
  magic := BitVec.ofNat 16 (Ram.load h.ram (h.addr ptr) 2)
  used := BitVec.ofNat 16 (Ram.load h.ram (h.addr ptr + 2) 2)
  next := BitVec.ofNat 32 (Ram.load h.ram (h.addr ptr + 4) 4)
  prev := BitVec.ofNat 32 (Ram.load h.ram (h.addr ptr + 8) 4)

def setMagic (ptr : U32) (magic : U16) : Heap :=
  { h with ram := Ram.store h.ram (h.addr ptr) 2 magic.toNat }

def setUsed (ptr : U32) (used : U16) : Heap :=
  { h with ram := Ram.store h.ram (h.addr ptr + 2) 2 used.toNat }

def setNext (ptr next : U32) : Heap :=
  { h with ram := Ram.store h.ram (h.addr ptr + 4) 4 next.toNat }

def setPrev (ptr prev : U32) : Heap :=
  { h with ram := Ram.store h.ram (h.addr ptr + 8) 4 prev.toNat }

/-- The offset of `heap_end`. -/
def heapEnd : U32 := h.memSizeAligned + sizeofStructMem

/-- `used_mem += size` with the maximum. -/
def countUsed (size : U32) : Heap :=
  { h with
    usedMem := h.usedMem + size
    maxMem := if h.maxMem < h.usedMem + size then h.usedMem + size else h.maxMem }

/-- `rt_system_heap_init`; without room for the two `struct heap_mem` nothing is done. -/
def rtSystemHeapInit (beginAddr endAddr : U32) : Heap :=
  let beginAlign := rtAlign beginAddr
  let endAlign := rtAlignDown endAddr
  if 2 * sizeofStructMem < endAlign ∧ beginAlign ≤ endAlign - 2 * sizeofStructMem then
    let size := endAlign - beginAlign - 2 * sizeofStructMem
    let h := { h with memSizeAligned := size, heapPtr := beginAlign }
    let h := h.setMagic 0 heapMagic
    let h := h.setNext 0 (size + sizeofStructMem)
    let h := h.setPrev 0 0
    let h := h.setUsed 0 0
    let heapEnd := (h.mem 0).next
    let h := h.setMagic heapEnd heapMagic
    let h := h.setUsed heapEnd 1
    let h := h.setNext heapEnd (size + sizeofStructMem)
    let h := h.setPrev heapEnd (size + sizeofStructMem)
    { h with lfree := 0 }
  else h

/-- `plug_holes`. -/
def plugHoles (mem : U32) : Option Heap :=
  if h.heapEnd ≤ mem ∨ (h.mem mem).used ≠ 0 then none
  else
    let nmem := (h.mem mem).next
    let h :=
      if mem ≠ nmem ∧ (h.mem nmem).used = 0 ∧ nmem ≠ h.heapEnd then
        let h := if h.lfree = nmem then { h with lfree := mem } else h
        let h := h.setNext mem (h.mem nmem).next
        h.setPrev (h.mem nmem).next mem
      else h
    let pmem := (h.mem mem).prev
    if pmem ≠ mem ∧ (h.mem pmem).used = 0 then
      let h := if h.lfree = mem then { h with lfree := pmem } else h
      let h := h.setNext pmem (h.mem mem).next
      some (h.setPrev (h.mem mem).next pmem)
    else some h

/-- A free block behind a block that is cut: all fields of `mem2`, and the links of its neighbours. -/
def insertMem2 (ptr ptr2 : U32) : Heap :=
  let h := h.setMagic ptr2 heapMagic
  let h := h.setUsed ptr2 0
  let h := h.setNext ptr2 (h.mem ptr).next
  let h := h.setPrev ptr2 ptr
  let h := h.setNext ptr ptr2
  if (h.mem ptr2).next ≠ h.heapEnd then h.setPrev (h.mem ptr2).next ptr2 else h

/-- The search of `rt_malloc`: the block that is taken, if there is one. -/
def search (size : U32) : ℕ → U32 → Option (Option U32)
  | 0, _ => none
  | fuel + 1, ptr =>
    if ptr < h.memSizeAligned - size then
      let mem := h.mem ptr
      if mem.used = 0 ∧ size ≤ mem.next - (ptr + sizeofStructMem) then some (some ptr)
      else search size fuel mem.next
    else some none

/-- The block at `ptr` is taken, the part that is not needed cut off if it is large enough. -/
def take (size ptr : U32) : Heap :=
  let room := (h.mem ptr).next - (ptr + sizeofStructMem)
  let h :=
    if size + sizeofStructMem + minSizeAligned ≤ room then
      let h := h.insertMem2 ptr (ptr + sizeofStructMem + size)
      let h := h.setUsed ptr 1
      h.countUsed (size + sizeofStructMem)
    else
      let h := h.setUsed ptr 1
      h.countUsed ((h.mem ptr).next - ptr)
  h.setMagic ptr heapMagic

/-- `while (lfree->used && lfree != heap_end)`. -/
def nextFree : ℕ → U32 → Option U32
  | 0, _ => none
  | fuel + 1, ptr =>
    if (h.mem ptr).used ≠ 0 ∧ ptr ≠ h.heapEnd then nextFree fuel (h.mem ptr).next else some ptr

/-- `rt_malloc`. -/
def rtMalloc (size : U32) (fuel : ℕ) : Option (U32 × Heap) :=
  if size = 0 then some (0, h)
  else
    let size := rtAlign size
    if h.memSizeAligned < size then some (0, h)
    else
      let size := if size < minSizeAligned then minSizeAligned else size
      (h.search size fuel h.lfree).bind fun found =>
        match found with
        | none => some (0, h)
        | some ptr =>
          let h := h.take size ptr
          let lfree := if ptr = h.lfree then h.nextFree fuel h.lfree else some h.lfree
          lfree.bind fun lfree =>
            if ptr = h.lfree ∧ ¬(lfree = h.heapEnd ∨ (h.mem lfree).used = 0) then none
            else
              let h := { h with lfree := lfree }
              let mem := h.heapPtr + ptr
              if mem + sizeofStructMem + size ≤ h.heapPtr + h.heapEnd ∧
                  (mem + sizeofStructMem) % rtAlignSize = 0 ∧ mem &&& (rtAlignSize - 1) = 0 then
                some (mem + sizeofStructMem, h)
              else none

/-- `rt_free`. -/
def rtFree (rmem : U32) : Option Heap :=
  if rmem = 0 then some h
  else if rmem &&& (rtAlignSize - 1) ≠ 0 ∨ rmem < h.heapPtr ∨ h.heapPtr + h.heapEnd ≤ rmem then none
  else
    let mem := rmem - sizeofStructMem - h.heapPtr
    if (h.mem mem).used = 0 ∨ (h.mem mem).magic ≠ heapMagic then none
    else
      let h := h.setUsed mem 0
      let h := h.setMagic mem heapMagic
      let h := if mem < h.lfree then { h with lfree := mem } else h
      let h := { h with usedMem := h.usedMem - ((h.mem mem).next - mem) }
      h.plugHoles mem

/-- The part of `rt_realloc` under the semaphore: `none` when the block stays, else its size. -/
def reallocInPlace (rmem newsize : U32) : Option (Option U32 × Heap) :=
  if rmem < h.heapPtr ∨ h.heapPtr + h.heapEnd ≤ rmem then some (none, h)
  else
    let ptr := rmem - sizeofStructMem - h.heapPtr
    let size := (h.mem ptr).next - ptr - sizeofStructMem
    if size = newsize then some (none, h)
    else if newsize + sizeofStructMem + minSize < size then
      let h := { h with usedMem := h.usedMem - (size - newsize) }
      let ptr2 := ptr + sizeofStructMem + newsize
      let h := h.insertMem2 ptr ptr2
      let h := if ptr2 < h.lfree then { h with lfree := ptr2 } else h
      (h.plugHoles ptr2).map (none, ·)
    else some (some size, h)

/-- `rt_memcpy` between blocks that do not overlap. -/
def rtMemcpy (dst src count : U32) : Heap :=
  { h with ram := Ram.copy h.ram dst.toNat src.toNat count.toNat }

/-- `rt_memset` with zeros. -/
def rtMemset (s count : U32) : Heap := { h with ram := Ram.zero h.ram s.toNat count.toNat }

/-- `rt_realloc`. -/
def rtRealloc (rmem newsize : U32) (fuel : ℕ) : Option (U32 × Heap) :=
  let newsize := rtAlign newsize
  if h.memSizeAligned < newsize then some (0, h)
  else if newsize = 0 then (h.rtFree rmem).map (0, ·)
  else if rmem = 0 then h.rtMalloc newsize fuel
  else
    (h.reallocInPlace rmem newsize).bind fun (grow, h) =>
      match grow with
      | none => some (rmem, h)
      | some size =>
        (h.rtMalloc newsize fuel).bind fun (nmem, h) =>
          if nmem ≠ 0 then
            let h := h.rtMemcpy nmem rmem (if size < newsize then size else newsize)
            (h.rtFree rmem).map (nmem, ·)
          else some (nmem, h)

/-- `rt_calloc`. -/
def rtCalloc (count size : U32) (fuel : ℕ) : Option (U32 × Heap) :=
  (h.rtMalloc (count * size) fuel).map fun (p, h) =>
    (p, if p ≠ 0 then h.rtMemset p (count * size) else h)

end Heap

/-! ## Runs -/

/-- The heap and what its callers hold: the address of each block with the bytes granted. -/
structure HeapRun where
  heap : Heap
  live : ℕ → Option ℕ

/-- What a thread does at once: the steps of a call, and a write of a byte. -/
inductive HeapStep where
  | malloc (size : U32)
  | free (rmem : U32)
  | inPlace (rmem newsize : U32)
  | write (a : ℕ) (v : U8)

namespace HeapStep

/-- What a caller may do: it frees and resizes blocks it holds, to a size the call has rounded up, and
writes to their bytes. -/
def Allowed (s : HeapRun) : HeapStep → Prop
  | malloc _ => True
  | free rmem => rmem ≠ 0 → (s.live rmem.toNat).isSome
  | inPlace rmem newsize => (s.live rmem.toNat).isSome ∧ newsize ≠ 0 ∧
      newsize ≤ s.heap.memSizeAligned ∧ ∃ size, newsize = rtAlign size
  | write a _ => ∃ p n, s.live p = some n ∧ p ≤ a ∧ a < p + n

/-- The state after a step. -/
def exec (fuel : ℕ) (step : HeapStep) (s : HeapRun) : Option HeapRun :=
  match step with
  | malloc size => (s.heap.rtMalloc size fuel).map fun (p, heap) =>
      ⟨heap, if p = 0 then s.live else Function.update s.live p.toNat (some (rtAlign size).toNat)⟩
  | free rmem => (s.heap.rtFree rmem).map fun heap =>
      ⟨heap, if rmem = 0 then s.live else Function.update s.live rmem.toNat none⟩
  | inPlace rmem newsize => (s.heap.reallocInPlace rmem newsize).map fun (grow, heap) =>
      ⟨heap, if grow = none then Function.update s.live rmem.toNat (some newsize.toNat) else s.live⟩
  | write a v => some ⟨{ s.heap with ram := Function.update s.heap.ram a v }, s.live⟩

end HeapStep

/-- The heap after `rt_system_heap_init`, when nothing is held. -/
def heapStart (ram : Ram.Memory) (beginAddr endAddr : U32) : HeapRun where
  heap := (Heap.mk 0 0 0 0 0 ram).rtSystemHeapInit beginAddr endAddr
  live := fun _ => none

/-- The states that steps of a kind lead to. -/
inductive HeapRuns (kind : HeapStep → Prop) (s₀ : HeapRun) : HeapRun → Prop
  | refl : HeapRuns kind s₀ s₀
  | step {s s' : HeapRun} (h : HeapRuns kind s₀ s) (step : HeapStep) (hkind : kind step)
      (hallowed : step.Allowed s) (hexec : Returns (fun fuel => step.exec fuel s) s') :
      HeapRuns kind s₀ s'

end LowPower
