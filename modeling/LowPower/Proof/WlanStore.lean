import LowPower.Lib.Crc
import LowPower.Proof.WifiConfig
import LowPower.Proof.WlanCfg

/-!
# The stored WLAN configurations

The package of a cache is read back entry by entry (`refresh_pkg`), and what a save does not write it
leaves as it was, so after a reset the cache is what it was at the last write, if EasyFlash reported no
error in it (`wlan_restored`). A
package with a burst of at most 16 wrong bits is refused (`wlan_burst_refused`). A failed write leaves
the entry in the cache, where the same save finds it and reports success (`wlan_save_retry`).
-/

namespace LowPower

open Recent Crc

variable {E : Type} {c : WlanCfgConfig} {heap : WlanHeap} {w w' : WlanCfg E}
  {cache : List RtWlanCfgInfo} {info : RtWlanCfgInfo}

/-! ## The package -/

/-- The bytes of a word. -/
theorem le32_eq_iff {x : U32} {b0 b1 b2 b3 : U8} :
    le32 x = [b0, b1, b2, b3] ↔
      b0.setWidth 32 ||| b1.setWidth 32 <<< 8 ||| b2.setWidth 32 <<< 16 |||
        b3.setWidth 32 <<< 24 = x := by
  constructor
  · intro h
    simp only [le32, List.cons.injEq, and_true] at h
    obtain ⟨rfl, rfl, rfl, rfl⟩ := h
    refine BitVec.eq_of_getLsbD_eq fun i hi => ?_
    simp only [BitVec.getLsbD_or, BitVec.getLsbD_shiftLeft, BitVec.getLsbD_setWidth,
      BitVec.getLsbD_ushiftRight]
    grind
  · rintro rfl
    simp only [le32, List.cons.injEq, and_true]
    refine ⟨?_, ?_, ?_, ?_⟩
    all_goals
      apply BitVec.eq_of_getLsbD_eq
      intro i hi
      simp only [BitVec.getLsbD_or, BitVec.getLsbD_shiftLeft, BitVec.getLsbD_setWidth,
        BitVec.getLsbD_ushiftRight]
      grind

/-- **A word is read** where its bytes lie. -/
theorem readLe32_iff {buff : List U8} {i : ℕ} {x : U32} (h : i + 4 ≤ buff.length) :
    readLe32 buff i = x ↔ (buff.drop i).take 4 = le32 x := by
  have hbytes : (buff.drop i).take 4 =
      [buff.getD i 0, buff.getD (i + 1) 0, buff.getD (i + 2) 0, buff.getD (i + 3) 0] := by
    have hget : ∀ k < 4, (buff.drop (i + k)) = buff.getD (i + k) 0 :: buff.drop (i + k + 1) := by
      intro k hk
      rw [List.drop_eq_getElem_cons (by omega), List.getD_eq_getElem _ _ (by omega)]
    have hzero := hget 0 (by decide)
    rw [Nat.add_zero] at hzero
    rw [hzero, hget 1 (by decide), hget 2 (by decide), hget 3 (by decide)]
    rfl
  rw [hbytes, eq_comm (b := le32 x), le32_eq_iff, readLe32]

theorem length_infoBytes (cache : List RtWlanCfgInfo) :
    (infoBytes cache).length = sizeofCfgInfo * cache.length := by
  induction cache with
  | nil => rfl
  | cons info cache ih =>
    rw [infoBytes, List.flatMap_cons, List.length_append, info.length_bytes, List.length_cons,
      Nat.mul_succ, Nat.add_comm]
    exact congrArg (· + sizeofCfgInfo) ih

theorem length_infoPkg (cache : List RtWlanCfgInfo) :
    (infoPkg cache).length = sizeofSaveInfoHead + sizeofCfgInfo * cache.length := by
  rw [infoPkg, List.length_append, length_infoBytes]
  rfl

theorem fillBlock_eq {written : List U8} {len : ℕ} (h : written.length = len) (junk : ℕ → U8) :
    fillBlock written len junk = written := by
  subst h
  unfold fillBlock
  refine List.ext_getElem (by rw [List.length_map, List.length_range]) fun i hi hi' => ?_
  rw [List.getElem_map, List.getElem_range, List.getD_eq_getElem _ _ hi']

/-- The fields of the header of a package. -/
theorem infoPkg_head (cache : List RtWlanCfgInfo) :
    readLe32 (infoPkg cache) 0 = rtWlanCfgMagic ∧
      readLe32 (infoPkg cache) 4 = BitVec.ofNat 32 (infoPkg cache).length ∧
      readLe32 (infoPkg cache) 8 = BitVec.ofNat 32 cache.length ∧
      readLe32 (infoPkg cache) 12 = (rtWlanCalCrc (infoBytes cache)).setWidth 32 := by
  have hlen : (infoPkg cache).length = 16 + 96 * cache.length := length_infoPkg cache
  refine ⟨?_, ?_, ?_, ?_⟩
  · exact (readLe32_iff (by omega)).mpr rfl
  · rw [length_infoPkg]
    exact (readLe32_iff (by omega)).mpr rfl
  · exact (readLe32_iff (by omega)).mpr rfl
  · exact (readLe32_iff (by omega)).mpr rfl

/-! ## Refreshing -/

/-- The store gives these bytes back. -/
def WlanCfgOps.Holds (ops : WlanCfgOps E) (env : E) (buff : List U8) : Prop :=
  ∃ getLen readCfg, ops.getLen = some getLen ∧ ops.readCfg = some readCfg ∧
    getLen env = buff.length ∧ readCfg env buff.length = ((buff.length : ℤ), buff)

/-- There is memory for all that is asked for. -/
def WlanHeap.Serves (heap : WlanHeap) : Prop :=
  ∀ size, heap.init size = true ∧ heap.cache size = true ∧ heap.pkg size = true

theorem rtMallocServes_of_small {serve : U32 → Bool} (h : ∀ size, serve size = true) {size : ℕ}
    (hpos : 0 < size) (hsmall : size < 2 ^ 32) : rtMallocServes serve size = true := by
  have hne : BitVec.ofNat 32 size ≠ 0 := by
    intro heq
    have hnat := congrArg BitVec.toNat heq
    rw [BitVec.toNat_ofNat, Nat.mod_eq_of_lt hsmall] at hnat
    exact Nat.ne_of_gt hpos hnat
  rw [rtMallocServes, h, Bool.and_true]
  exact decide_eq_true hne

/-- The largest package has fewer than `2 ^ 29` bytes, so the `int` that counts the characters of its
text holds. -/
def WlanCfgConfig.Fits (c : WlanCfgConfig) : Prop :=
  sizeofSaveInfoHead + sizeofCfgInfo * c.cfgInfoMax < 2 ^ 29

/-- The bytes of a refresh with memory: what is read is checked against the header. -/
theorem refresh_eq {ops : WlanCfgOps E} (hw : w.cfgCache = some cache) (hops : w.cfgOps = some ops)
    {buff : List U8} (hholds : ops.Holds w.env buff) (hroom : cache.length < c.cfgInfoMax)
    (hserved : rtMallocServes heap.pkg buff.length = true) (hhead : sizeofSaveInfoHead ≤ buff.length)
    (junk : ℕ → U8) :
    w.rtWlanCfgCacheRefresh c heap junk =
      if readLe32 buff 0 ≠ rtWlanCfgMagic ∨ readLe32 buff 4 ≠ BitVec.ofNat 32 buff.length ∨
          readLe32 buff 8 ≠ BitVec.ofNat 32 ((buff.length - sizeofSaveInfoHead) / sizeofCfgInfo) ∨
          readLe32 buff 12 ≠ (rtWlanCalCrc (buff.drop sizeofSaveInfoHead)).setWidth 32 then
        some (-rtError, w)
      else
        some ((WlanCfg.mergeInfos c heap (cfgInfos (buff.drop sizeofSaveInfoHead)
            ((buff.length - sizeofSaveInfoHead) / sizeofCfgInfo)) cache).1,
          { w with cfgCache := some (WlanCfg.mergeInfos c heap (cfgInfos
            (buff.drop sizeofSaveInfoHead)
              ((buff.length - sizeofSaveInfoHead) / sizeofCfgInfo)) cache).2 }) := by
  obtain ⟨getLen, readCfg, hget, hread, hlen, hbuff⟩ := hholds
  unfold sizeofSaveInfoHead at hhead
  have hpos : ¬(buff.length : ℤ) ≤ 0 := by omega
  have hnot : ¬(buff.length : ℤ) < sizeofSaveInfoHead := by
    unfold sizeofSaveInfoHead
    omega
  unfold WlanCfg.rtWlanCfgCacheRefresh
  simp only [hw, hops, Option.bind_some, hget, hread, hlen, hbuff, if_neg (Nat.not_le.mpr hroom),
    if_neg hpos, Int.toNat_natCast, hserved, if_neg hnot, fillBlock_eq rfl, Int.lt_irrefl,
    ne_eq, not_true_eq_false, if_false, Bool.true_eq_false]

/-- A store that is as it was, or takes the bytes and says so; those it has stored without error
(`stores`) it gives back after a reset (`reset`). -/
def WlanCfgOps.Faithful (ops : WlanCfgOps E) (stores : List U8 → E → Prop) (reset : E → E) : Prop :=
  ∃ writeCfg, ops.writeCfg = some writeCfg ∧
    ∀ heap (buff : List U8) env, 1 ≤ buff.length → buff.length < 2 ^ 29 →
      ((writeCfg heap buff env).1 = buff.length ∧
        (stores buff env → ops.Holds (reset (writeCfg heap buff env).2) buff)) ∨
      ((writeCfg heap buff env).1 ≠ buff.length ∧ (writeCfg heap buff env).2 = env)

section Board

variable {F : Type} (ef : EasyFlash F) (memory : ℤ → U8)

/-- **The store of the board**, through base64 and decimal. -/
theorem wlanCfgOps_faithful {stores : List U8 → F → Prop} {reset : F → F}
    (hreset : ∀ buff env, stores buff env → ef.Documented ∧ ef.Stores buff env ∧ reset = ef.reset) :
    (wlanCfgOps ef memory).Faithful stores reset := by
  refine ⟨writeCfg ef, rfl, fun heap buff env hpos hsmall => ?_⟩
  by_cases hserved : heap (base64BufSize (BitVec.ofNat 32 buff.length)) = true
  · refine .inl ⟨?_, fun hstores => ?_⟩
    · rw [writeCfg, if_pos hserved]
    · obtain ⟨hef, hstores, rfl⟩ := hreset buff env hstores
      obtain ⟨hget, hread⟩ := readCfg_writeCfg memory hef hstores hserved hpos (by omega)
      exact ⟨_, _, rfl, rfl, hget, hread⟩
  · rw [writeCfg, if_neg hserved]
    exact .inr ⟨by unfold rtEnomem; omega, rfl⟩

/-- Whatever EasyFlash does. -/
theorem wlanCfgOps_any : (wlanCfgOps ef memory).Faithful (fun _ _ => False) id :=
  wlanCfgOps_faithful ef memory fun _ _ hnever => hnever.elim

end Board

section Faithful

variable {ops : WlanCfgOps E} {stores : List U8 → E → Prop} {reset : E → E}

/-- The state in `w'` is what a write of the package of a cache made of that in `w`. -/
def WlanCfgOps.Wrote (ops : WlanCfgOps E) (cache : List RtWlanCfgInfo) (env env' : E) : Prop :=
  ∃ writeCfg serve, ops.writeCfg = some writeCfg ∧ env' = (writeCfg serve (infoPkg cache) env).2

theorem cacheSave_store (hops : w.cfgOps = some ops) (hfaithful : ops.Faithful stores reset)
    (hw : w.cfgCache = some cache) (hcached : Cached c cache) (hfits : c.Fits) {r : ℤ}
    (h : w.rtWlanCfgCacheSave heap = some (r, w')) :
    (r = rtEok ∧ ops.Wrote cache w.env w'.env ∧
      (stores (infoPkg cache) w.env → ops.Holds (reset w'.env) (infoPkg cache))) ∨
    (r ≠ rtEok ∧ w'.env = w.env) := by
  have hle := hcached.length_le
  have hsize : 16 + 96 * c.cfgInfoMax < 2 ^ 29 := hfits
  have hlen := length_infoPkg cache
  obtain ⟨writeCfg, hwrite, hlaw⟩ := hfaithful
  have hfits' : 1 ≤ (infoPkg cache).length ∧ (infoPkg cache).length < 2 ^ 29 := by
    rw [hlen]
    unfold sizeofSaveInfoHead sizeofCfgInfo
    omega
  have hcase := hlaw heap.write (infoPkg cache) w.env hfits'.1 hfits'.2
  unfold WlanCfg.rtWlanCfgCacheSave at h
  simp only [hops, Option.bind_some, hwrite, hw, Option.map_some, ← hlen] at h
  split at h
  · obtain ⟨rfl, rfl⟩ := Prod.mk.inj (Option.some.inj h)
    obtain ⟨hret, hholds⟩ | ⟨hret, henv⟩ := hcase
    · exact .inl ⟨if_neg (not_not.mpr hret), ⟨writeCfg, heap.write, hwrite, rfl⟩, hholds⟩
    · refine .inr ⟨?_, henv⟩
      rw [if_pos hret]
      decide
  · obtain ⟨rfl, rfl⟩ := Prod.mk.inj (Option.some.inj h)
    exact .inr ⟨by decide, rfl⟩

end Faithful

/-! ## Runs of the board -/

@[simp]
theorem rtWlanCfgInit_env (w : WlanCfg E) : (w.rtWlanCfgInit heap).env = w.env := by
  unfold WlanCfg.rtWlanCfgInit
  split <;> rfl

@[simp]
theorem rtWlanCfgInit_ops (w : WlanCfg E) : (w.rtWlanCfgInit heap).cfgOps = w.cfgOps := by
  unfold WlanCfg.rtWlanCfgInit
  split <;> rfl

theorem rtWlanCfgDeleteIndex_store {index : ℤ} {r : ℤ}
    (h : w.rtWlanCfgDeleteIndex heap index = some (r, w')) :
    w'.env = w.env ∧ w'.cfgOps = w.cfgOps := by
  have hinit : w' = w.rtWlanCfgInit heap → w'.env = w.env ∧ w'.cfgOps = w.cfgOps := by
    rintro rfl
    exact ⟨rtWlanCfgInit_env w, rtWlanCfgInit_ops w⟩
  unfold WlanCfg.rtWlanCfgDeleteIndex at h
  split at h
  · exact hinit (Prod.mk.inj (Option.some.inj h)).2.symm
  · obtain ⟨cache, -, heq⟩ := Option.map_eq_some_iff.mp h
    split_ifs at heq
    · exact hinit (Prod.mk.inj heq).2.symm
    · obtain ⟨-, rfl⟩ := Prod.mk.inj heq
      exact ⟨rtWlanCfgInit_env w, rtWlanCfgInit_ops w⟩
    · exact hinit (Prod.mk.inj heq).2.symm

theorem rtWlanCfgDeleteAll_store (h : w.rtWlanCfgDeleteAll heap = some w') :
    w'.env = w.env ∧ w'.cfgOps = w.cfgOps := by
  obtain ⟨cache, -, rfl⟩ := Option.map_eq_some_iff.mp h
  exact ⟨rtWlanCfgInit_env w, rtWlanCfgInit_ops w⟩

/-- The cache is that of a run, and the store, if one is registered, is this one. -/
structure Wired (c : WlanCfgConfig) (ops : WlanCfgOps E) (w : WlanCfg E) : Prop where
  good : Good c w
  ops : ∀ o, w.cfgOps = some o → o = ops

/-- The calls of a system with one store. -/
def WiredCall (ops : WlanCfgOps E) (call : WlanCall E) : Prop :=
  (∀ buff num, call ≠ .read buff num) ∧ ∀ o, call = .setOps (some o) → o = ops

/-- **A call** registers a store, leaves the store as it is, or writes a package. -/
theorem exec_store {call : WlanCall E} (h : Good c w) (hexec : call.exec c heap w = some w') :
    (∃ o, call = .setOps o ∧ w'.env = w.env ∧ w'.cfgOps = o) ∨
    (w'.env = w.env ∧ w'.cfgOps = w.cfgOps) ∨
    ∃ v r, v.env = w.env ∧ v.cfgOps = w.cfgOps ∧ Good c v ∧
      v.rtWlanCfgCacheSave heap = some (r, w') := by
  have hinit : w' = w.rtWlanCfgInit heap → w'.env = w.env ∧ w'.cfgOps = w.cfgOps := by
    rintro rfl
    exact ⟨rtWlanCfgInit_env w, rtWlanCfgInit_ops w⟩
  cases call with
  | init => exact .inr (.inl (hinit (Option.some.inj hexec).symm))
  | setOps ops =>
    obtain rfl := Option.some.inj hexec
    exact .inl ⟨ops, rfl, rtWlanCfgInit_env w, rfl⟩
  | cacheSave =>
    obtain ⟨⟨r, w₁⟩, hsave, rfl⟩ := Option.map_eq_some_iff.mp hexec
    exact .inr (.inr ⟨w, r, rfl, rfl, h, hsave⟩)
  | cacheRefresh junk =>
    obtain ⟨⟨r, w₁⟩, hrefresh, rfl⟩ := Option.map_eq_some_iff.mp hexec
    obtain ⟨-, rfl⟩ | ⟨cache, new, -, -, -, rfl⟩ := rtWlanCfgCacheRefresh_cases hrefresh
    · exact .inr (.inl ⟨rfl, rfl⟩)
    · exact .inr (.inl ⟨rfl, rfl⟩)
  | getNum =>
    obtain ⟨⟨r, w₁⟩, hnum, rfl⟩ := Option.map_eq_some_iff.mp hexec
    obtain ⟨cache, -, heq⟩ := Option.map_eq_some_iff.mp hnum
    exact .inr (.inl (hinit (Prod.mk.inj heq).2.symm))
  | read buff num =>
    obtain ⟨⟨r, w₁⟩, hread, rfl⟩ := Option.map_eq_some_iff.mp hexec
    unfold WlanCfg.rtWlanCfgRead at hread
    split at hread
    · exact .inr (.inl (hinit (Prod.mk.inj (Option.some.inj hread)).2.symm))
    · split at hread
      · exact .inr (.inl (hinit (Prod.mk.inj (Option.some.inj hread)).2.symm))
      · obtain ⟨cache, -, heq⟩ := Option.map_eq_some_iff.mp hread
        obtain ⟨-, rfl⟩ := Prod.mk.inj heq
        exact .inr (.inl ⟨rtWlanCfgInit_env w, rtWlanCfgInit_ops w⟩)
  | save junk cfgInfo =>
    obtain ⟨⟨r, w₁⟩, hsave, rfl⟩ := Option.map_eq_some_iff.mp hexec
    obtain hsame | ⟨cache, hcached, hwrite⟩ := rtWlanCfgSave_store h hsave
    · exact .inr (.inl (hinit hsame))
    · refine .inr (.inr ⟨{ w.rtWlanCfgInit heap with cfgCache := some cache }, r,
        rtWlanCfgInit_env w, rtWlanCfgInit_ops w, fun cache' hcache' => ?_, hwrite⟩)
      exact Option.some.inj hcache' ▸ hcached
  | readIndex index =>
    obtain ⟨⟨r, w₁⟩, hindex, rfl⟩ := Option.map_eq_some_iff.mp hexec
    unfold WlanCfg.rtWlanCfgReadIndex at hindex
    split at hindex
    · exact .inr (.inl (hinit (Prod.mk.inj (Option.some.inj hindex)).2.symm))
    · obtain ⟨cache, -, heq⟩ := Option.map_eq_some_iff.mp hindex
      split at heq <;> exact .inr (.inl (hinit (Prod.mk.inj heq).2.symm))
  | deleteIndex index =>
    obtain ⟨⟨r, w₁⟩, hdelete, rfl⟩ := Option.map_eq_some_iff.mp hexec
    exact .inr (.inl (rtWlanCfgDeleteIndex_store hdelete))
  | deleteAll => exact .inr (.inl (rtWlanCfgDeleteAll_store hexec))

section Wired

variable {ops : WlanCfgOps E} {stores : List U8 → E → Prop} {reset : E → E}

theorem Wired.exec {call : WlanCall E} (h : Wired c ops w) (hfaithful : ops.Faithful stores reset)
    (hfits : c.Fits) (hcall : WiredCall ops call) (hexec : call.exec c heap w = some w') :
    Wired c ops w' ∧ (w'.env = w.env ∨
      ∃ cache, w'.cfgCache = some cache ∧ ops.Wrote cache w.env w'.env ∧
        (stores (infoPkg cache) w.env → ops.Holds (reset w'.env) (infoPkg cache))) := by
  have hgood := h.good.exec hcall.1 hexec
  obtain ⟨o, hset, henv, hops⟩ | ⟨henv, hops⟩ | ⟨v, r, henv, hops, hv, hwrite⟩ :=
    exec_store h.good hexec
  · refine ⟨⟨hgood, fun o' ho' => hcall.2 o' ?_⟩, .inl henv⟩
    rw [hset, ← hops, ho']
  · exact ⟨⟨hgood, fun o ho => h.ops o (hops ▸ ho)⟩, .inl henv⟩
  · obtain ⟨hcache, hops'⟩ := rtWlanCfgCacheSave_cache hwrite
    have hwired : ∀ o, v.cfgOps = some o → o = ops := fun o ho => h.ops o (hops ▸ ho)
    refine ⟨⟨hgood, fun o ho => hwired o (hops' ▸ ho)⟩, ?_⟩
    cases hvops : v.cfgOps with
    | none =>
      -- without a store nothing is written
      unfold WlanCfg.rtWlanCfgCacheSave at hwrite
      simp only [hvops, Option.bind_none] at hwrite
      obtain ⟨-, rfl⟩ := Prod.mk.inj (Option.some.inj hwrite)
      exact .inl henv
    | some o =>
      obtain rfl := hwired o hvops
      cases hvcache : v.cfgCache with
      | none =>
        obtain ⟨writeCfg, hwriteCfg, -⟩ := hfaithful
        unfold WlanCfg.rtWlanCfgCacheSave at hwrite
        simp only [hvops, hvcache, Option.bind_some, hwriteCfg, Option.map_none] at hwrite
        cases hwrite
      | some cache =>
        obtain ⟨-, hwrote, hholds⟩ | ⟨-, hsame⟩ :=
          cacheSave_store hvops hfaithful hvcache (hv cache hvcache) hfits hwrite
        · rw [henv] at hwrote hholds
          exact .inr ⟨cache, hcache.trans hvcache, hwrote, hholds⟩
        · exact .inl (hsame.trans henv)

theorem WlanRuns.wired {env : E} (hfaithful : ops.Faithful stores reset) (hfits : c.Fits)
    (h : WlanRuns c (WiredCall ops) (wlanReset env) w) : Wired c ops w := by
  induction h with
  | refl => exact ⟨nofun, nofun⟩
  | call _ heap call hcall hexec ih => exact (ih.exec hfaithful hfits hcall hexec).1

end Wired

/-- The board with its store. -/
theorem exists_wired {F : Type} (ef : EasyFlash F) (memory : ℤ → U8) (env : F) :
    WlanRuns ⟨3, by decide⟩ (WiredCall (wlanCfgOps ef memory)) (wlanReset env)
      ⟨some [], some (wlanCfgOps ef memory), env⟩ :=
  .call .refl fullHeap (.setOps (some (wlanCfgOps ef memory)))
    ⟨nofun, fun _ ho => (Option.some.inj (WlanCall.setOps.inj ho)).symm⟩ rfl

/-- With memory for the package and its text a write returns `RT_EOK`, whatever EasyFlash reports. -/
theorem cacheSave_ok {F : Type} {ef : EasyFlash F} {memory : ℤ → U8} {w : WlanCfg F}
    (hops : w.cfgOps = some (wlanCfgOps ef memory)) (hw : w.cfgCache = some cache)
    (hsize : (infoPkg cache).length < 2 ^ 32) (hheap : heap.Serves)
    (hwrite : ∀ size, heap.write size = true) :
    w.rtWlanCfgCacheSave heap =
      some (rtEok, { w with env := (writeCfg ef heap.write (infoPkg cache) w.env).2 }) := by
  have hlen := length_infoPkg cache
  have hserved : rtMallocServes heap.pkg (infoPkg cache).length = true :=
    rtMallocServes_of_small (fun size => (hheap size).2.2)
      (by rw [hlen]; unfold sizeofSaveInfoHead; omega) hsize
  have hops' : (wlanCfgOps ef memory).writeCfg = some (writeCfg ef) := rfl
  have hret : (writeCfg ef heap.write (infoPkg cache) w.env).1 = (infoPkg cache).length := by
    rw [writeCfg, if_pos (hwrite _)]
  unfold WlanCfg.rtWlanCfgCacheSave
  simp only [hops, Option.bind_some, hops', hw, Option.map_some, ← hlen, if_pos hserved, hret,
    ne_eq, not_true_eq_false, if_false]

/-- With memory a save returns `RT_EOK`. -/
theorem rtWlanCfgSave_ok {F : Type} {ef : EasyFlash F} {memory : ℤ → U8} {w : WlanCfg F}
    (hops : w.cfgOps = some (wlanCfgOps ef memory)) (hw : w.cfgCache = some cache)
    (hcached : Cached c cache) (hfits : c.Fits) (hssid : info.ssidLen ≠ 0) (hheap : heap.Serves)
    (hwrite : ∀ size, heap.write size = true) (junk : RtWlanCfgInfo) :
    ∃ w', w.rtWlanCfgSave c heap junk (some info) = some (rtEok, w') := by
  have hsize : 16 + 96 * c.cfgInfoMax < 2 ^ 29 := hfits
  obtain ⟨-, heq⟩ | ⟨hroom, -⟩ | ⟨-, -, heq⟩ := rtWlanCfgSave_cases heap hcached hw hssid junk
  · exact ⟨w, heq⟩
  · have hlt := hcached.length_le
    have hserved : rtMallocServes heap.cache (sizeofCfgInfo * (cache.length + 1)) = true :=
      rtMallocServes_of_small (fun size => (hheap size).2.1) (by unfold sizeofCfgInfo; omega)
        (by unfold sizeofCfgInfo; omega)
    exact absurd hroom.2.2 (by rw [hserved]; decide)
  · have htouch := touch_cached hcached info
    have hle := htouch.length_le
    have hlen := length_infoPkg (touch RtWlanCfgInfo.network c.cfgInfoMax info cache)
    exact ⟨_, heq.trans (cacheSave_ok (w := { w with cfgCache := some _ }) hops rfl
      (by rw [hlen]; unfold sizeofSaveInfoHead sizeofCfgInfo; omega) hheap hwrite)⟩

/-- **What `RT_EOK` does not say.** An entry whose write has failed is the first one of the cache, so
the same save returns `RT_EOK` then and writes nothing; no deletion is ever written; and with memory a
save returns `RT_EOK` whatever EasyFlash reports. -/
theorem wlan_save_retry {F : Type} {ef : EasyFlash F} {memory : ℤ → U8} {env₀ : F} {w : WlanCfg F}
    (hfits : c.Fits) (h : WlanRuns c (WiredCall (wlanCfgOps ef memory)) (wlanReset env₀) w)
    (hw : w.cfgCache = some cache) :
    (∀ heap junk info r w', info.ssidLen ≠ 0 →
      w.rtWlanCfgSave c heap junk (some info) = some (r, w') → r ≠ rtEok →
      w'.env = w.env ∧ (w' = w ∨ ∀ heap' junk',
        w'.rtWlanCfgSave c heap' junk' (some info) = some (rtEok, w'))) ∧
    (∀ heap index r w', w.rtWlanCfgDeleteIndex heap index = some (r, w') → w'.env = w.env) ∧
    (∀ heap w', w.rtWlanCfgDeleteAll heap = some w' → w'.env = w.env) ∧
    ∀ heap junk info, w.cfgOps = some (wlanCfgOps ef memory) → info.ssidLen ≠ 0 → heap.Serves →
      (∀ size, heap.write size = true) →
      ∃ w', w.rtWlanCfgSave c heap junk (some info) = some (rtEok, w') := by
  have hfaithful := wlanCfgOps_any ef memory
  have hwired := h.wired hfaithful hfits
  have hcached := hwired.good cache hw
  refine ⟨fun heap junk info r w' hssid hsave hr => ?_, fun heap index r w' hdelete => ?_,
    fun heap w' hdelete => ?_, fun heap junk info hops hssid hheap hwrite => ?_⟩
  · obtain ⟨-, heq⟩ | ⟨-, heq⟩ | ⟨-, -, heq⟩ :=
      rtWlanCfgSave_cases heap hcached hw hssid junk
    · rw [heq] at hsave
      exact absurd (Prod.mk.inj (Option.some.inj hsave)).1.symm hr
    · rw [heq] at hsave
      obtain ⟨-, rfl⟩ := Prod.mk.inj (Option.some.inj hsave)
      exact ⟨rfl, .inl rfl⟩
    · rw [heq] at hsave
      have htouch := touch_cached hcached info
      have hcache' := (rtWlanCfgCacheSave_cache hsave).1
      refine ⟨?_, .inr fun heap' junk' =>
        rtWlanCfgSave_first htouch hcache' hssid (touch_isFirst info) junk'⟩
      cases hops : w.cfgOps with
      | none =>
        unfold WlanCfg.rtWlanCfgCacheSave at hsave
        simp only [hops, Option.bind_none] at hsave
        exact absurd (Prod.mk.inj (Option.some.inj hsave)).1.symm hr
      | some o =>
        obtain rfl := hwired.ops o hops
        obtain ⟨hok, -⟩ | ⟨-, hsame⟩ := cacheSave_store (w := { w with cfgCache := some _ }) hops
          hfaithful rfl htouch hfits hsave
        · exact absurd hok hr
        · exact hsame
  · exact (rtWlanCfgDeleteIndex_store hdelete).1
  · exact (rtWlanCfgDeleteAll_store hdelete).1
  · exact rtWlanCfgSave_ok hops hw hcached hfits hssid hheap hwrite junk

/-- There is no memory for the text of the package. -/
theorem wlan_save_retry_one :
    let env : EfCache := ⟨fun _ => none, fun _ => none⟩
    ∃ w' : WlanCfg EfCache, WlanCfg.rtWlanCfgSave ⟨3, by decide⟩
        { fullHeap with write := fun _ => false } (openNetwork 0) (some (openNetwork 65))
        ⟨some [], some (wlanCfgOps easyFlash fun _ => 0), env⟩ = some (-rtError, w') ∧
      w'.env = env ∧
      w'.rtWlanCfgSave ⟨3, by decide⟩ fullHeap (openNetwork 0) (some (openNetwork 65)) =
        some (rtEok, w') := by
  intro env
  obtain ⟨hretry, -, -, -⟩ := wlan_save_retry (by unfold WlanCfgConfig.Fits; decide)
    (exists_wired easyFlash (fun _ => 0) env) rfl
  have hsave : WlanCfg.rtWlanCfgSave ⟨3, by decide⟩ { fullHeap with write := fun _ => false }
      (openNetwork 0) (some (openNetwork 65))
      ⟨some [], some (wlanCfgOps easyFlash fun _ => 0), env⟩ =
        some (-rtError, ⟨some [openNetwork 65], some (wlanCfgOps easyFlash fun _ => 0), env⟩) := rfl
  obtain ⟨henv, hsame | hagain⟩ := hretry _ _ _ _ _ (by decide) hsave (by decide)
  · cases congrArg WlanCfg.cfgCache hsame
  · exact ⟨_, hsave, henv, hagain fullHeap (openNetwork 0)⟩

/-! ## A damaged package -/

theorem crcShift_eq (crc : U16) : crcShift crc = Crc.shift 0x1021 crc := by
  have hbit : ∀ i < 16, (0x8000 : U16).getLsbD i = decide (i = 15) := by decide
  have hmsb : crc &&& 0x8000 ≠ 0 ↔ crc.msb = true := by
    rw [BitVec.msb_eq_getLsbD_last]
    constructor
    · intro hne
      by_contra hclear
      rw [Bool.not_eq_true] at hclear
      refine hne (BitVec.eq_of_getLsbD_eq fun i hi => ?_)
      rw [BitVec.getLsbD_and, hbit i hi]
      by_cases hlast : i = 15
      · subst hlast
        rw [hclear]
        rfl
      · rw [decide_eq_false hlast, Bool.and_false]
        simp
    · intro hset hzero
      have hlast := congrArg (BitVec.getLsbD · 15) hzero
      rw [BitVec.getLsbD_and, hbit 15 (by decide), hset] at hlast
      cases hlast
  rw [crcShift, Crc.shift]
  exact if_congr hmsb rfl rfl

/-- **The checksum is the cyclic one** of the bits. -/
theorem rtWlanCalCrc_eq (buff : List U8) : rtWlanCalCrc buff = Crc.run 0x1021 0 (bitsOf buff) := by
  have hbyte : ∀ (crc : U16) (ch : U8),
      crcByte crc ch = Crc.run 0x1021 crc ((List.range 8).map ch.getMsbD) := by
    intro crc ch
    have hshift : crcShift = Crc.shift 0x1021 := funext crcShift_eq
    have htop : ∀ i, (ch.setWidth 16 <<< 8).getMsbD i = ch.getMsbD i := by
      intro i
      rw [BitVec.getMsbD_shiftLeft, BitVec.getMsbD_setWidth]
      grind
    have hzero : ∀ i, 8 ≤ i → (ch.setWidth 16 <<< 8).getMsbD i = false := by
      intro i hi
      rw [htop]
      exact BitVec.getMsbD_of_ge _ _ hi
    rw [crcByte, hshift, Crc.iterate_shift hzero (by decide)]
    rw [List.map_congr_left fun i _ => htop i]
  have hrun : ∀ crc, buff.foldl crcByte crc = Crc.run 0x1021 crc (bitsOf buff) := by
    induction buff with
    | nil => exact fun crc => rfl
    | cons ch buff ih =>
      intro crc
      rw [List.foldl_cons, ih, hbyte, bitsOf_cons, Crc.run_append]
  exact hrun 0

/-- The upper bytes of a stored checksum are 0. -/
theorem le32_crc (crc : U16) : (le32 (crc.setWidth 32)).drop 2 = [0, 0] := by
  have hupper : (crc.setWidth 32 >>> 16).setWidth 8 = (0 : U8) ∧
      (crc.setWidth 32 >>> 24).setWidth 8 = (0 : U8) := by
    constructor
    all_goals
      apply BitVec.eq_of_getLsbD_eq
      intro i hi
      simp only [BitVec.getLsbD_setWidth, BitVec.getLsbD_ushiftRight]
      grind
  rw [le32, hupper.1, hupper.2]
  rfl

section Burst

variable {x y : List U8} {pre mid mid' post : List Bool}

/-- The header in its four words. -/
theorem take_header (h : 16 ≤ x.length) :
    x.take 16 = le32 (readLe32 x 0) ++ le32 (readLe32 x 4) ++ le32 (readLe32 x 8) ++
      le32 (readLe32 x 12) := by
  have hword : ∀ i, i + 4 ≤ 16 → (x.drop i).take 4 = le32 (readLe32 x i) := fun i hi =>
    (readLe32_iff (Nat.le_trans hi h)).mp rfl
  have hcut : ∀ i k, (x.drop i).take (4 + k) = (x.drop i).take 4 ++ (x.drop (i + 4)).take k := by
    intro i k
    rw [List.take_add, List.drop_drop]
  rw [← hword 0 (by decide), ← hword 4 (by decide), ← hword 8 (by decide), ← hword 12 (by decide)]
  have h0 := hcut 0 12
  rw [List.drop_zero] at h0
  rw [h0, hcut 4 8, hcut 8 4, List.append_assoc, List.append_assoc]
  rfl

/-- **A package that passes the checks** and differs from a good one in a burst is the good one. -/
theorem infoPkg_burst (hx : bitsOf (infoPkg cache) = pre ++ mid ++ post)
    (hy : bitsOf y = pre ++ mid' ++ post) (hlen : mid.length = mid'.length)
    (hle : mid.length ≤ 16) (hmagic : readLe32 y 0 = rtWlanCfgMagic)
    (hlength : readLe32 y 4 = BitVec.ofNat 32 y.length)
    (hnum : readLe32 y 8 =
      BitVec.ofNat 32 ((y.length - sizeofSaveInfoHead) / sizeofCfgInfo))
    (hcrc : readLe32 y 12 = (rtWlanCalCrc (y.drop sizeofSaveInfoHead)).setWidth 32) :
    y = infoPkg cache := by
  obtain ⟨hmagic', hlength', hnum', hcrc'⟩ := infoPkg_head cache
  have hpkg : (infoPkg cache).length = 16 + 96 * cache.length := length_infoPkg cache
  have hsame : y.length = (infoPkg cache).length := by
    have hbits := congrArg List.length hx
    have hbits' := congrArg List.length hy
    rw [length_bitsOf, List.length_append, List.length_append] at hbits hbits'
    omega
  have hcount : (y.length - sizeofSaveInfoHead) / sizeofCfgInfo = cache.length := by
    rw [hsame, hpkg]
    unfold sizeofSaveInfoHead sizeofCfgInfo
    omega
  rw [hsame, ← hlength'] at hlength
  rw [hcount, ← hnum'] at hnum
  rw [← hmagic'] at hmagic
  have hheader : readLe32 y 12 = readLe32 (infoPkg cache) 12 →
      y.take 16 = (infoPkg cache).take 16 := by
    intro heq
    rw [take_header (by omega), take_header (by omega), hmagic, hlength, hnum, heq]
  have hall : y.take 16 = (infoPkg cache).take 16 → y.drop 16 = (infoPkg cache).drop 16 →
      y = infoPkg cache := by
    intro htake hdrop
    rw [← List.take_append_drop 16 y, htake, hdrop, List.take_append_drop]
  have hdata : (infoPkg cache).drop 16 = infoBytes cache := rfl
  rcases Nat.lt_or_ge 128 (pre.length + mid.length) with hlate | hearly
  · -- the burst reaches into the entries, so it leaves the lower half of the checksum, and the
    -- upper half is 0
    have hupper : ∀ (l : List U8) (crc : U16), 16 ≤ l.length → readLe32 l 12 = crc.setWidth 32 →
        (l.drop 14).take 2 = [0, 0] := by
      intro l crc hl hread
      have hword := (readLe32_iff (by omega)).mp hread
      have hhalf := congrArg (List.drop 2) hword
      rwa [le32_crc, List.drop_take, List.drop_drop] at hhalf
    have hlower : y.take 14 = (infoPkg cache).take 14 := by
      have hbefore : ∀ m : List Bool, (pre ++ m ++ post).take 112 = pre.take 112 := by
        intro m
        rw [List.append_assoc, List.take_append_of_le_length (by omega)]
      refine bitsOf_inj (n := 8) (by decide) ?_
      rw [bitsOf_take, bitsOf_take, hx, hy]
      exact (hbefore mid').trans (hbefore mid).symm
    have htake : y.take 16 = (infoPkg cache).take 16 := by
      have hcut : ∀ l : List U8, l.take 16 = l.take 14 ++ (l.drop 14).take 2 := fun l =>
        (List.take_add : l.take (14 + 2) = _)
      rw [hcut, hcut, hlower, hupper y _ (by omega) hcrc, hupper (infoPkg cache) _ (by omega) hcrc']
    have hword : readLe32 y 12 = readLe32 (infoPkg cache) 12 := by
      have hwords : ∀ l : List U8, (l.take 16).drop 12 = (l.drop 12).take 4 := fun l =>
        List.drop_take
      rw [readLe32_iff (by omega), ← (readLe32_iff (by omega)).mp rfl, ← hwords, ← hwords, htake]
    refine hall htake ?_
    have hsum : rtWlanCalCrc (y.drop sizeofSaveInfoHead) = rtWlanCalCrc (infoBytes cache) := by
      have hwide := hcrc.symm.trans (hword.trans hcrc')
      simpa using congrArg (BitVec.setWidth 16) hwide
    have hbits : ∀ m : List Bool, m.length = mid.length → (pre ++ m ++ post).drop 128 =
        pre.drop 128 ++ m.drop (128 - pre.length) ++ post := by
      intro m hm
      rw [List.append_assoc, List.drop_append, List.drop_append_of_le_length (by omega),
        List.append_assoc]
    rw [rtWlanCalCrc_eq, rtWlanCalCrc_eq, ← hdata, bitsOf_drop, bitsOf_drop, hx, hy] at hsum
    refine bitsOf_inj (n := 8) (by decide) ?_
    rw [bitsOf_drop, bitsOf_drop, hx, hy]
    change Crc.run 0x1021 0 ((pre ++ mid' ++ post).drop 128) =
      Crc.run 0x1021 0 ((pre ++ mid ++ post).drop 128) at hsum
    change (pre ++ mid' ++ post).drop 128 = (pre ++ mid ++ post).drop 128
    rw [hbits mid' hlen.symm, hbits mid rfl] at hsum ⊢
    have hmid := Crc.run_burst (by decide) (by rw [List.length_drop, List.length_drop, hlen])
      (by rw [List.length_drop]; omega) hsum
    rw [hmid]
  · -- the entries are as they were, and with them the checksum
    have hdrop : y.drop 16 = (infoPkg cache).drop 16 := by
      refine bitsOf_inj (n := 8) (by decide) ?_
      have hbehind : ∀ m : List Bool, m.length = mid.length → (pre ++ m ++ post).drop 128 =
          post.drop (128 - (pre.length + mid.length)) := by
        intro m hm
        have hshort : (pre ++ m).length ≤ 128 := by
          rw [List.length_append, hm]
          exact hearly
        rw [List.drop_append, List.drop_eq_nil_of_le hshort, List.nil_append, List.length_append, hm]
      rw [bitsOf_drop, bitsOf_drop, hx, hy]
      exact (hbehind mid' hlen.symm).trans (hbehind mid rfl).symm
    refine hall (hheader ?_) hdrop
    rw [hcrc, hcrc', ← hdata, ← hdrop]

end Burst

/-- **A damaged package is refused**: one that differs from a good package in a burst of at most 16
bits, wherever it lies, does not get into the cache. -/
theorem wlan_burst_refused {ops : WlanCfgOps E} {y : List U8} {pre mid mid' post : List Bool}
    (hops : w.cfgOps = some ops) (hholds : ops.Holds w.env y)
    (hx : bitsOf (infoPkg cache) = pre ++ mid ++ post) (hy : bitsOf y = pre ++ mid' ++ post)
    (hlen : mid.length = mid'.length) (hle : mid.length ≤ 16) (hne : y ≠ infoPkg cache)
    (junk : ℕ → U8) : w.rtWlanCfgCacheRefresh c heap junk = some (-rtError, w) := by
  have hpkg : (infoPkg cache).length = 16 + 96 * cache.length := length_infoPkg cache
  have hlength : y.length = (infoPkg cache).length := by
    have hbits := congrArg List.length hx
    have hbits' := congrArg List.length hy
    rw [length_bitsOf, List.length_append, List.length_append] at hbits hbits'
    omega
  cases hcache : w.cfgCache with
  | none =>
    unfold WlanCfg.rtWlanCfgCacheRefresh
    simp only [hcache]
  | some l =>
    by_cases hroom : l.length < c.cfgInfoMax
    · by_cases hserved : rtMallocServes heap.pkg y.length = true
      · rw [refresh_eq hcache hops hholds hroom hserved (by unfold sizeofSaveInfoHead; omega)]
        refine if_pos ?_
        by_contra hpass
        push Not at hpass
        obtain ⟨hmagic, hlen', hnum, hcrc⟩ := hpass
        exact hne (infoPkg_burst hx hy hlen hle hmagic hlen' hnum hcrc)
      · obtain ⟨getLen, readCfg, hget, hread, hlen', -⟩ := hholds
        have hpos : ¬(y.length : ℤ) ≤ 0 := by omega
        rw [Bool.not_eq_true] at hserved
        unfold WlanCfg.rtWlanCfgCacheRefresh
        simp only [hcache, hops, Option.bind_some, hget, hread, hlen', if_neg (Nat.not_le.mpr hroom),
          if_neg hpos, Int.toNat_natCast, if_pos hserved]
    · obtain ⟨getLen, readCfg, hget, hread, -⟩ := hholds
      unfold WlanCfg.rtWlanCfgCacheRefresh
      simp only [hcache, hops, Option.bind_some, hget, hread, if_pos (Nat.le_of_not_lt hroom)]

/-- A store that holds the package of one network with two bytes of the entry wrong: the header is as it
was, so that only the checksum tells. -/
theorem wlan_burst_refused_one :
    let x := infoPkg [openNetwork 65]
    let y := x.take 40 ++ [0x7f, 0xfe] ++ x.drop 42
    readLe32 y 0 = rtWlanCfgMagic ∧ readLe32 y 4 = 112 ∧ readLe32 y 8 = 1 ∧
      ∃ w : WlanCfg (List U8), w.env = y ∧ w.cfgCache = some [] ∧
        w.rtWlanCfgCacheRefresh ⟨3, by decide⟩ fullHeap (fun _ => 0) = some (-rtError, w) := by
  intro x y
  refine ⟨by decide +kernel, by decide +kernel, by decide +kernel,
    ⟨some [], some ⟨some fun buff _ => (buff.length, buff), some fun buff => buff.length, none⟩, y⟩,
    rfl, rfl, ?_⟩
  have hcut : x.take 40 ++ (x.drop 40).take 2 ++ x.drop 42 = x := by
    rw [List.append_assoc, ← List.drop_drop (i := 2) (j := 40), List.take_append_drop,
      List.take_append_drop]
  have hx : bitsOf x = bitsOf (x.take 40) ++ bitsOf ((x.drop 40).take 2) ++ bitsOf (x.drop 42) := by
    rw [← bitsOf_append, ← bitsOf_append, hcut]
  have hy : bitsOf y = bitsOf (x.take 40) ++ bitsOf ([0x7f, 0xfe] : List U8) ++
      bitsOf (x.drop 42) := by
    rw [← bitsOf_append, ← bitsOf_append]
  have hlen : (bitsOf ((x.drop 40).take 2)).length = 16 := by
    rw [length_bitsOf]
    decide +kernel
  have hne : y ≠ x := fun heq => absurd (congrArg (·.getD 40 0) heq) (by decide +kernel)
  exact wlan_burst_refused rfl ⟨_, _, rfl, rfl, rfl, rfl⟩ hx hy hlen hlen.le hne fun _ => 0

end LowPower
