import LowPower.Spec.WifiConfig

/-!
# The WLAN configuration cache

`wlan_cfg.c` keeps the networks the device has joined, the latest one first, in a cache of at most
`RT_WLAN_CFG_INFO_MAX` entries, and writes them as one package to the store behind `cfg_ops`. The
environment `E` is whatever that store keeps; for the board it is EasyFlash.

A call is one step: the model is that of one thread, or of threads that call one at a time. The mutex
does not make it so by itself, for `rt_wlan_cfg_save` gives it back before `rt_wlan_cfg_cache_save`
takes it again, `rt_wlan_cfg_cache_refresh` looks at `num` before it takes it, and
`rt_wlan_cfg_get_num` never takes it. `none` is a run into a fault: a null pointer, or bytes outside
of a buffer.
-/

namespace LowPower

abbrev rtEok : ℤ := 0
abbrev rtError : ℤ := 1
abbrev rtEinval : ℤ := 10

abbrev rtWlanCfgMagic : U32 := 0x426f6d62

/-- `sizeof(struct rt_wlan_cfg_info)`, `sizeof(struct cfg_save_info_head)` and
`sizeof(struct rt_wlan_cfg_des)`. -/
abbrev sizeofCfgInfo : ℕ := 96
abbrev sizeofSaveInfoHead : ℕ := 16
abbrev sizeofCfgDes : ℕ := 8

/-- `RT_WLAN_CFG_INFO_MAX`. -/
structure WlanCfgConfig where
  cfgInfoMax : ℕ
  max_pos : 1 ≤ cfgInfoMax

/-! ## Entries -/

/-- A `struct rt_wlan_cfg_info` as it lies in memory: 16 bytes of settings, the SSID with its length,
the BSSID, `hidden`, and the key with its length. -/
structure RtWlanCfgInfo where
  bytes : List U8
  length_bytes : bytes.length = sizeofCfgInfo
deriving DecidableEq

namespace RtWlanCfgInfo

/-- The first bytes of a buffer as an entry. -/
def ofBytes (buff : List U8) : RtWlanCfgInfo where
  bytes := List.ofFn fun i : Fin sizeofCfgInfo => buff.getD i 0
  length_bytes := List.length_ofFn

variable (info : RtWlanCfgInfo)

def ssidLen : U8 := info.bytes.getD 16 0

/-- The first characters of `ssid.val`. -/
def ssidVal (n : ℕ) : List U8 := (info.bytes.drop 17).take n

def bssid : List U8 := (info.bytes.drop 50).take 6

def keyLen : U8 := info.bytes.getD 60 0

/-- The first characters of `key.val`. -/
def keyVal (n : ℕ) : List U8 := (info.bytes.drop 61).take n

/-- The comparison of `rt_wlan_cfg_save` and `rt_wlan_cfg_cache_refresh`. -/
def sameNetwork (a b : RtWlanCfgInfo) : Bool :=
  a.ssidLen = b.ssidLen ∧ a.ssidVal a.ssidLen.toNat = b.ssidVal a.ssidLen.toNat ∧ a.bssid = b.bssid

def sameKey (a b : RtWlanCfgInfo) : Bool :=
  a.keyLen = b.keyLen ∧ a.keyVal b.keyLen.toNat = b.keyVal b.keyLen.toNat

end RtWlanCfgInfo

/-! ## The state -/

/-- `struct rt_wlan_cfg_ops`: the bytes read are written to a buffer, and `write_cfg` may ask the
heap for memory. -/
structure WlanCfgOps (E : Type) where
  readCfg : Option (E → ℤ → ℤ × List U8)
  getLen : Option (E → ℤ)
  writeCfg : Option ((U32 → Bool) → List U8 → E → ℤ × E)

/-- `cfg_cache` with `num` entries, `cfg_ops`, and what the store keeps. -/
structure WlanCfg (E : Type) where
  cfgCache : Option (List RtWlanCfgInfo)
  cfgOps : Option (WlanCfgOps E)
  env : E

/-- What `rt_malloc` and `rt_realloc` serve in a call: the sizes at each place that asks. A size of 0
is never served. -/
structure WlanHeap where
  init : U32 → Bool
  cache : U32 → Bool
  pkg : U32 → Bool
  write : U32 → Bool

def rtMallocServes (heap : U32 → Bool) (size : ℕ) : Bool :=
  BitVec.ofNat 32 size ≠ 0 && heap (BitVec.ofNat 32 size)

/-! ## The package -/

/-- The body of the loop over the bits. -/
def crcShift (crc : U16) : U16 :=
  if crc &&& 0x8000 ≠ 0 then (crc <<< 1) ^^^ 0x1021 else crc <<< 1

def crcByte (crc : U16) (ch : U8) : U16 :=
  crcShift^[8] (crc ^^^ (ch.setWidth 16 <<< 8))

def rtWlanCalCrc (buff : List U8) : U16 := buff.foldl crcByte 0x0000

/-- A `rt_uint32_t` in memory. -/
def le32 (x : U32) : List U8 :=
  [x.setWidth 8, (x >>> 8).setWidth 8, (x >>> 16).setWidth 8, (x >>> 24).setWidth 8]

/-- The `rt_uint32_t` at an offset. -/
def readLe32 (buff : List U8) (i : ℕ) : U32 :=
  (buff.getD i 0).setWidth 32 ||| (buff.getD (i + 1) 0).setWidth 32 <<< 8 |||
    (buff.getD (i + 2) 0).setWidth 32 <<< 16 ||| (buff.getD (i + 3) 0).setWidth 32 <<< 24

def infoBytes (cache : List RtWlanCfgInfo) : List U8 := cache.flatMap RtWlanCfgInfo.bytes

/-- The package of `rt_wlan_cfg_cache_save`. -/
def infoPkg (cache : List RtWlanCfgInfo) : List U8 :=
  le32 rtWlanCfgMagic ++
    le32 (BitVec.ofNat 32 (sizeofSaveInfoHead + sizeofCfgInfo * cache.length)) ++
    le32 (BitVec.ofNat 32 cache.length) ++
    le32 ((rtWlanCalCrc (infoBytes cache)).setWidth 32) ++ infoBytes cache

/-- A block of `len` bytes once the first ones are written; the rest is what was there. -/
def fillBlock (written : List U8) (len : ℕ) (junk : ℕ → U8) : List U8 :=
  (List.range len).map fun i => written.getD i (junk i)

/-- `cfg_info[i]` behind the header. -/
def cfgInfos (data : List U8) (num : ℕ) : List RtWlanCfgInfo :=
  (List.range num).map fun i => .ofBytes (data.drop (sizeofCfgInfo * i))

/-! ## The calls -/

namespace WlanCfg

variable {E : Type} (c : WlanCfgConfig) (heap : WlanHeap)

def rtWlanCfgInit (w : WlanCfg E) : WlanCfg E :=
  match w.cfgCache with
  | none => { w with cfgCache := if rtMallocServes heap.init sizeofCfgDes then some [] else none }
  | some _ => w

def rtWlanCfgSetOps (ops : Option (WlanCfgOps E)) (w : WlanCfg E) : WlanCfg E :=
  { w.rtWlanCfgInit heap with cfgOps := ops }

def rtWlanCfgCacheSave (w : WlanCfg E) : Option (ℤ × WlanCfg E) :=
  match w.cfgOps.bind WlanCfgOps.writeCfg with
  | none => some (rtEok, w)
  | some writeCfg =>
    w.cfgCache.map fun cache =>
      let len := sizeofSaveInfoHead + sizeofCfgInfo * cache.length
      if rtMallocServes heap.pkg len then
        let (written, env) := writeCfg heap.write (infoPkg cache) w.env
        (if written ≠ len then -rtError else rtEok, { w with env := env })
      else (-rtEnomem, w)

/-- The loop over the entries read: those of other networks go behind the cache, until it is full. -/
def mergeInfos : List RtWlanCfgInfo → List RtWlanCfgInfo → ℤ × List RtWlanCfgInfo
  | [], cache => (rtEok, cache)
  | info :: rest, cache =>
    let equalFlag := cache.any (·.sameNetwork info)
    if c.cfgInfoMax ≤ cache.length then (rtEok, cache)
    else if equalFlag = false then
      if rtMallocServes heap.cache (sizeofCfgInfo * (cache.length + 1)) then
        mergeInfos rest (cache ++ [info])
      else (-rtError, cache)
    else mergeInfos rest cache

/-- `junk` is what the block for the package holds before it is read. -/
def rtWlanCfgCacheRefresh (junk : ℕ → U8) (w : WlanCfg E) : Option (ℤ × WlanCfg E) :=
  match w.cfgCache, w.cfgOps.bind WlanCfgOps.getLen, w.cfgOps.bind WlanCfgOps.readCfg with
  | some cache, some getLen, some readCfg =>
    if c.cfgInfoMax ≤ cache.length then some (-rtError, w)
    else
      let len := getLen w.env
      if len ≤ 0 then some (-rtError, w)
      else if rtMallocServes heap.pkg len.toNat = false then some (-rtError, w)
      else
        let (ret, written) := readCfg w.env len
        if len < written.length then none
        else if ret ≠ len then some (-rtError, w)
        else if len < sizeofSaveInfoHead then none
        else
          let head := fillBlock written len.toNat junk
          let data := head.drop sizeofSaveInfoHead
          let crc : U32 := (rtWlanCalCrc data).setWidth 32
          let num := (len.toNat - sizeofSaveInfoHead) / sizeofCfgInfo
          if readLe32 head 0 ≠ rtWlanCfgMagic ∨ readLe32 head 4 ≠ BitVec.ofNat 32 len.toNat ∨
              readLe32 head 8 ≠ BitVec.ofNat 32 num ∨ readLe32 head 12 ≠ crc then
            some (-rtError, w)
          else
            let (err, cache) := mergeInfos c heap (cfgInfos data num) cache
            some (err, { w with cfgCache := some cache })
  | _, _, _ => some (-rtError, w)

def rtWlanCfgGetNum (w : WlanCfg E) : Option (ℤ × WlanCfg E) :=
  let w := w.rtWlanCfgInit heap
  w.cfgCache.map fun cache => (cache.length, w)

/-- The buffer of the caller holds `num` entries, and the copy goes from it to the cache. -/
def rtWlanCfgRead (cfgInfo : Option (List RtWlanCfgInfo)) (num : ℤ) (w : WlanCfg E) :
    Option (ℤ × WlanCfg E) :=
  let w := w.rtWlanCfgInit heap
  match cfgInfo with
  | none => some (0, w)
  | some buff =>
    if num ≤ 0 then some (0, w)
    else
      w.cfgCache.map fun cache =>
        let num := if num < cache.length then num.toNat else cache.length
        (num, { w with cfgCache := some (buff.take num ++ cache.drop num) })

/-- `cfg_cache->cfg_info[i] = cfg_cache->cfg_info[i - 1]` for `i` down to 1. -/
def moveInfos : ℕ → List RtWlanCfgInfo → List RtWlanCfgInfo
  | 0, cache => cache
  | i + 1, cache => moveInfos i (cache.set (i + 1) (cache.getD i (.ofBytes [])))

/-- `junk` is what a new place in the cache holds. -/
def rtWlanCfgSave (junk : RtWlanCfgInfo) (cfgInfo : Option RtWlanCfgInfo) (w : WlanCfg E) :
    Option (ℤ × WlanCfg E) :=
  let w := w.rtWlanCfgInit heap
  match cfgInfo with
  | none => some (-rtEinval, w)
  | some info =>
    if info.ssidLen = 0 then some (-rtEinval, w)
    else
      w.cfgCache.bind fun cache =>
        let i := cache.findIdx (·.sameNetwork info)
        let found := i < cache.length
        if found ∧ i = 0 ∧ (cache.getD i junk).sameKey info then some (rtEok, w)
        else
          let grow := ¬found ∧ cache.length < c.cfgInfoMax
          if grow ∧
              rtMallocServes heap.cache (sizeofCfgInfo * (cache.length + 1)) = false then
            some (-rtEnomem, w)
          else
            let cache := if grow then cache ++ [junk] else cache
            let i := if c.cfgInfoMax ≤ i then c.cfgInfoMax - 1 else i
            let cache := (moveInfos i cache).set 0 info
            rtWlanCfgCacheSave heap { w with cfgCache := some cache }

/-- What is left in `*cfg_info`, if anything is. -/
def rtWlanCfgReadIndex (index : ℤ) (w : WlanCfg E) :
    Option ((ℤ × Option RtWlanCfgInfo) × WlanCfg E) :=
  let w := w.rtWlanCfgInit heap
  if index < 0 then some ((0, none), w)
  else
    w.cfgCache.map fun cache =>
      match cache[index.toNat]? with
      | some info => ((1, some info), w)
      | none => ((0, none), w)

def rtWlanCfgDeleteIndex (index : ℤ) (w : WlanCfg E) : Option (ℤ × WlanCfg E) :=
  let w := w.rtWlanCfgInit heap
  if index < 0 then some (-1, w)
  else
    w.cfgCache.map fun cache =>
      if cache.length ≤ index.toNat then (-1, w)
      else if rtMallocServes heap.cache (sizeofCfgInfo * (cache.length - 1)) then
        -- the entries before the index, and those behind it
        (0, { w with cfgCache := some (cache.take index.toNat ++ cache.drop (index.toNat + 1)) })
      else (-1, w)

def rtWlanCfgDeleteAll (w : WlanCfg E) : Option (WlanCfg E) :=
  let w := w.rtWlanCfgInit heap
  w.cfgCache.map fun _ => { w with cfgCache := some [] }

end WlanCfg

/-! ## Runs -/

/-- A call of the interface, with what uninitialised memory holds. -/
inductive WlanCall (E : Type) where
  | init
  | setOps (ops : Option (WlanCfgOps E))
  | cacheSave
  | cacheRefresh (junk : ℕ → U8)
  | getNum
  | read (cfgInfo : Option (List RtWlanCfgInfo)) (num : ℤ)
  | save (junk : RtWlanCfgInfo) (cfgInfo : Option RtWlanCfgInfo)
  | readIndex (index : ℤ)
  | deleteIndex (index : ℤ)
  | deleteAll

/-- The state after a call. -/
def WlanCall.exec {E : Type} (c : WlanCfgConfig) (heap : WlanHeap) (call : WlanCall E)
    (w : WlanCfg E) : Option (WlanCfg E) :=
  match call with
  | init => some (w.rtWlanCfgInit heap)
  | setOps ops => some (w.rtWlanCfgSetOps heap ops)
  | cacheSave => (w.rtWlanCfgCacheSave heap).map Prod.snd
  | cacheRefresh junk => (w.rtWlanCfgCacheRefresh c heap junk).map Prod.snd
  | getNum => (w.rtWlanCfgGetNum heap).map Prod.snd
  | read cfgInfo num => (w.rtWlanCfgRead heap cfgInfo num).map Prod.snd
  | save junk cfgInfo => (w.rtWlanCfgSave c heap junk cfgInfo).map Prod.snd
  | readIndex index => (w.rtWlanCfgReadIndex heap index).map Prod.snd
  | deleteIndex index => (w.rtWlanCfgDeleteIndex heap index).map Prod.snd
  | deleteAll => w.rtWlanCfgDeleteAll heap

/-- The states that calls of a kind lead to, whatever memory each of them gets. -/
inductive WlanRuns {E : Type} (c : WlanCfgConfig) (kind : WlanCall E → Prop) (w₀ : WlanCfg E) :
    WlanCfg E → Prop
  | refl : WlanRuns c kind w₀ w₀
  | call {w w' : WlanCfg E} (h : WlanRuns c kind w₀ w) (heap : WlanHeap) (call : WlanCall E)
      (hkind : kind call) (hexec : call.exec c heap w = some w') : WlanRuns c kind w₀ w'

/-! ## The board -/

/-- The `ops` of `wifi_config.c`. -/
def wlanCfgOps {F : Type} (ef : EasyFlash F) (memory : ℤ → U8) : WlanCfgOps F where
  readCfg := some fun env => readCfg memory (ef.texts env)
  getLen := some fun env => getLen (ef.texts env)
  writeCfg := some (writeCfg ef)

/-- The state of the cache after a reset: what the store keeps is all that is left. -/
def wlanReset {E : Type} (env : E) : WlanCfg E := ⟨none, none, env⟩

end LowPower
