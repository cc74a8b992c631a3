import LowPower.Lib.Recent
import LowPower.Spec.WlanCfg

/-!
# The cache of WLAN configurations: networks used last

A save is a `touch` of the cache by its network (`rtWlanCfgSave_cases`), a refresh a `merge` of what
the store keeps (`mergeInfos_merge`). So the cache of every run holds different networks, at most
`RT_WLAN_CFG_INFO_MAX` of them, with the one saved last at the front (`wlan_recent`).
-/

namespace LowPower

open Recent

variable {E : Type} {c : WlanCfgConfig} {heap : WlanHeap} {w w' : WlanCfg E}
  {cache : List RtWlanCfgInfo} {info : RtWlanCfgInfo}

/-! ## Networks -/

/-- What tells two networks apart. -/
def RtWlanCfgInfo.network (info : RtWlanCfgInfo) : U8 × List U8 × List U8 :=
  (info.ssidLen, info.ssidVal info.ssidLen.toNat, info.bssid)

theorem sameNetwork_iff {a b : RtWlanCfgInfo} :
    a.sameNetwork b = true ↔ a.network = b.network := by
  rw [RtWlanCfgInfo.sameNetwork, decide_eq_true_iff, RtWlanCfgInfo.network, RtWlanCfgInfo.network,
    Prod.mk.injEq, Prod.mk.injEq]
  constructor
  · rintro ⟨hlen, hval, hbssid⟩
    exact ⟨hlen, hlen ▸ hval, hbssid⟩
  · rintro ⟨hlen, hval, hbssid⟩
    exact ⟨hlen, hval.trans (by rw [hlen]), hbssid⟩

/-- The cache of a run. -/
structure Cached (c : WlanCfgConfig) (cache : List RtWlanCfgInfo) : Prop where
  length_le : cache.length ≤ c.cfgInfoMax
  distinct : Distinct RtWlanCfgInfo.network cache

theorem Cached.nil (c : WlanCfgConfig) : Cached c [] := ⟨Nat.zero_le _, List.nodup_nil⟩

theorem Cached.sublist {cache' : List RtWlanCfgInfo} (h : Cached c cache)
    (hsub : cache'.Sublist cache) : Cached c cache' :=
  ⟨hsub.length_le.trans h.length_le, h.distinct.sublist (hsub.map _)⟩

/-! ## Saving -/

/-- **The loop that makes room** takes the entry at `i` out. -/
theorem moveInfos_set {i : ℕ} (hi : i < cache.length) (info : RtWlanCfgInfo) :
    (WlanCfg.moveInfos i cache).set 0 info = info :: (cache.take i ++ cache.drop (i + 1)) := by
  induction i generalizing cache with
  | zero =>
    obtain ⟨a, rest, rfl⟩ := List.exists_cons_of_length_pos hi
    rfl
  | succ i ih =>
    have hbefore : i < cache.length := by omega
    have hget : cache.getD i (.ofBytes []) = cache[i] := by
      rw [List.getD_eq_getElem?_getD, List.getElem?_eq_getElem hbefore, Option.getD_some]
    rw [WlanCfg.moveInfos, hget, ih (by rw [List.length_set]; exact hbefore)]
    have htake : (cache.set (i + 1) cache[i]).take i = cache.take i := by
      rw [List.take_set, List.set_eq_of_length_le (by rw [List.length_take]; omega)]
    have hdrop : (cache.set (i + 1) cache[i]).drop (i + 1) = cache[i] :: cache.drop (i + 2) := by
      rw [List.drop_set, if_neg (by omega), Nat.sub_self, List.drop_eq_getElem_cons hi]
      rfl
    rw [htake, hdrop, List.take_succ_eq_append_getElem hbefore, List.append_assoc,
      List.singleton_append]

theorem rtWlanCfgInit_some (hw : w.cfgCache = some cache) : w.rtWlanCfgInit heap = w := by
  rw [WlanCfg.rtWlanCfgInit, hw]

section Find

/-- The entry of the network, or the length without one. -/
theorem findIdx_lt_iff : cache.findIdx (·.sameNetwork info) < cache.length ↔
    info.network ∈ cache.map RtWlanCfgInfo.network := by
  rw [List.findIdx_lt_length, List.mem_map]
  exact exists_congr fun old => and_congr_right fun _ => sameNetwork_iff

theorem network_findIdx (h : cache.findIdx (·.sameNetwork info) < cache.length) :
    (cache[cache.findIdx (·.sameNetwork info)]).network = info.network :=
  sameNetwork_iff.mp
    (List.findIdx_getElem (p := fun old : RtWlanCfgInfo => old.sameNetwork info) (w := h))

/-- **The cache after a save**: room is made at the end for a new network, or its place is taken, or
the last one goes. -/
theorem savedCache_eq (h : Cached c cache) (info junk : RtWlanCfgInfo) {i : ℕ}
    (hi : i = cache.findIdx (·.sameNetwork info)) :
    (WlanCfg.moveInfos (if c.cfgInfoMax ≤ i then c.cfgInfoMax - 1 else i)
      (if ¬i < cache.length ∧ cache.length < c.cfgInfoMax then cache ++ [junk] else cache)).set 0
        info = touch RtWlanCfgInfo.network c.cfgInfoMax info cache := by
  have hmax := c.max_pos
  have hlen := h.length_le
  by_cases hfound : i < cache.length
  · have hnetwork : cache[i].network = info.network := by
      subst hi
      exact network_findIdx hfound
    have hcut : cache = cache.take i ++ cache[i] :: cache.drop (i + 1) := by
      rw [← List.drop_eq_getElem_cons hfound, List.take_append_drop]
    have htouch := touch_of_found (hcut ▸ h.distinct) hnetwork (hcut ▸ hlen)
    rw [if_neg (show ¬c.cfgInfoMax ≤ i by omega), if_neg (fun hgrow => hgrow.1 hfound),
      moveInfos_set hfound, ← htouch, ← hcut]
  · have hnew : info.network ∉ cache.map RtWlanCfgInfo.network := fun hmem =>
      hfound (hi ▸ findIdx_lt_iff.mpr hmem)
    have hlast : i = cache.length := Nat.le_antisymm (hi ▸ List.findIdx_le_length) (by omega)
    rw [touch_of_new hnew, hlast]
    by_cases hgrow : cache.length < c.cfgInfoMax
    · -- the new place is at the end
      rw [if_neg (by omega), if_pos ⟨Nat.lt_irrefl _, hgrow⟩,
        moveInfos_set (by rw [List.length_append, List.length_singleton]; omega),
        List.take_left' rfl, List.drop_eq_nil_of_le (by rw [List.length_append]; exact Nat.le_refl _),
        List.append_nil, List.take_of_length_le (by rw [List.length_cons]; omega)]
    · -- the last entry goes
      obtain ⟨n, hn⟩ : ∃ n, c.cfgInfoMax = n + 1 := ⟨c.cfgInfoMax - 1, by omega⟩
      rw [if_pos (by omega), if_neg (fun hroom => hgrow hroom.2), moveInfos_set (by omega), hn,
        Nat.add_sub_cancel, List.take_succ_cons, List.drop_eq_nil_of_le (by omega), List.append_nil]

end Find

/-- The room for a new network cannot be got. -/
def NoRoom (c : WlanCfgConfig) (heap : WlanHeap) (cache : List RtWlanCfgInfo)
    (info : RtWlanCfgInfo) : Prop :=
  info.network ∉ cache.map RtWlanCfgInfo.network ∧ cache.length < c.cfgInfoMax ∧
    rtMallocServes heap.cache (sizeofCfgInfo * (cache.length + 1)) = false

/-- The first entry is the network, with the key. -/
def IsFirst (cache : List RtWlanCfgInfo) (info : RtWlanCfgInfo) : Prop :=
  ∃ old rest, cache = old :: rest ∧ old.network = info.network ∧ old.sameKey info = true

theorem isFirst_iff (junk : RtWlanCfgInfo) :
    (cache.findIdx (·.sameNetwork info) < cache.length ∧
      cache.findIdx (·.sameNetwork info) = 0 ∧
      (cache.getD (cache.findIdx (·.sameNetwork info)) junk).sameKey info = true) ↔
        IsFirst cache info := by
  constructor
  · rintro ⟨hfound, hzero, hkey⟩
    have hnetwork := network_findIdx hfound
    simp only [hzero] at hfound hnetwork hkey
    obtain ⟨old, rest, rfl⟩ := List.exists_cons_of_length_pos hfound
    exact ⟨old, rest, rfl, hnetwork, hkey⟩
  · rintro ⟨old, rest, rfl, hnetwork, hkey⟩
    have hzero : (old :: rest).findIdx (·.sameNetwork info) = 0 := by
      rw [List.findIdx_cons, sameNetwork_iff.mpr hnetwork]
      rfl
    rw [hzero]
    exact ⟨Nat.succ_pos _, rfl, hkey⟩

/-- **A save** does nothing when the entry is the first one, fails without room, and else puts the
entry to the front and writes the package. -/
theorem rtWlanCfgSave_cases (heap : WlanHeap) (h : Cached c cache) (hw : w.cfgCache = some cache)
    (hssid : info.ssidLen ≠ 0) (junk : RtWlanCfgInfo) :
    (IsFirst cache info ∧ w.rtWlanCfgSave c heap junk (some info) = some (rtEok, w)) ∨
    (NoRoom c heap cache info ∧
      w.rtWlanCfgSave c heap junk (some info) = some (-rtEnomem, w)) ∨
    (¬IsFirst cache info ∧ ¬NoRoom c heap cache info ∧
      w.rtWlanCfgSave c heap junk (some info) = WlanCfg.rtWlanCfgCacheSave heap
        { w with cfgCache := some (touch RtWlanCfgInfo.network c.cfgInfoMax info cache) }) := by
  have hsaved := savedCache_eq h info junk rfl
  have hnew : ¬cache.findIdx (·.sameNetwork info) < cache.length ↔
      info.network ∉ cache.map RtWlanCfgInfo.network := not_congr findIdx_lt_iff
  rw [WlanCfg.rtWlanCfgSave, rtWlanCfgInit_some hw]
  simp only [if_neg hssid, hw, Option.bind_some, hsaved]
  by_cases hfirst : IsFirst cache info
  · exact .inl ⟨hfirst, if_pos ((isFirst_iff junk).mpr hfirst)⟩
  · have hnot := fun hcond => hfirst ((isFirst_iff junk).mp hcond)
    by_cases hroom : NoRoom c heap cache info
    · refine .inr (.inl ⟨hroom, ?_⟩)
      rw [if_neg hnot, if_pos ⟨⟨hnew.mpr hroom.1, hroom.2.1⟩, hroom.2.2⟩]
    · refine .inr (.inr ⟨hfirst, hroom, ?_⟩)
      rw [if_neg hnot, if_neg fun hgrow =>
        hroom ⟨hnew.mp hgrow.1.1, hgrow.1.2, hgrow.2⟩]

/-! ## Writing and reading the package -/

/-- A write of the package leaves the cache and the store's functions as they are. -/
theorem rtWlanCfgCacheSave_cache {r : ℤ} (h : w.rtWlanCfgCacheSave heap = some (r, w')) :
    w'.cfgCache = w.cfgCache ∧ w'.cfgOps = w.cfgOps := by
  unfold WlanCfg.rtWlanCfgCacheSave at h
  split at h
  · obtain ⟨-, rfl⟩ := Prod.mk.inj (Option.some.inj h)
    exact ⟨rfl, rfl⟩
  · obtain ⟨cache, -, hwrite⟩ := Option.map_eq_some_iff.mp h
    dsimp only at hwrite
    split at hwrite <;> obtain ⟨-, rfl⟩ := Prod.mk.inj hwrite <;> exact ⟨rfl, rfl⟩

/-- **What is read is merged** into the cache: all of it, or what memory is there for. -/
theorem mergeInfos_merge (heap : WlanHeap) (new : List RtWlanCfgInfo)
    (hlen : cache.length ≤ c.cfgInfoMax) :
    (∃ k, (WlanCfg.mergeInfos c heap new cache).2 =
      merge RtWlanCfgInfo.network c.cfgInfoMax (new.take k) cache) ∧
    ((WlanCfg.mergeInfos c heap new cache).1 = rtEok →
      (WlanCfg.mergeInfos c heap new cache).2 =
        merge RtWlanCfgInfo.network c.cfgInfoMax new cache) := by
  induction new generalizing cache with
  | nil => exact ⟨⟨0, rfl⟩, fun _ => rfl⟩
  | cons info new ih =>
    have hany : cache.any (·.sameNetwork info) = true ↔
        info.network ∈ cache.map RtWlanCfgInfo.network := by
      rw [List.any_eq_true, List.mem_map]
      exact exists_congr fun old => and_congr_right fun _ => sameNetwork_iff
    have hnext : ∀ cache' : List RtWlanCfgInfo, cache'.length ≤ c.cfgInfoMax →
        (∀ new, merge RtWlanCfgInfo.network c.cfgInfoMax (info :: new) cache =
          merge RtWlanCfgInfo.network c.cfgInfoMax new cache') →
        (∃ k, (WlanCfg.mergeInfos c heap new cache').2 =
          merge RtWlanCfgInfo.network c.cfgInfoMax ((info :: new).take k) cache) ∧
        ((WlanCfg.mergeInfos c heap new cache').1 = rtEok →
          (WlanCfg.mergeInfos c heap new cache').2 =
            merge RtWlanCfgInfo.network c.cfgInfoMax (info :: new) cache) := by
      intro cache' hlen' hmerge
      obtain ⟨⟨k, hk⟩, hall⟩ := ih hlen'
      refine ⟨⟨k + 1, ?_⟩, fun hok => ?_⟩
      · rw [hk, List.take_succ_cons, hmerge]
      · rw [hall hok, hmerge]
    unfold WlanCfg.mergeInfos
    by_cases hfull : c.cfgInfoMax ≤ cache.length
    · rw [if_pos hfull]
      exact ⟨⟨0, rfl⟩, fun _ => (merge_full _ hfull).symm⟩
    · rw [if_neg hfull]
      by_cases hflag : cache.any (·.sameNetwork info) = false
      · have hnew : info.network ∉ cache.map RtWlanCfgInfo.network := fun hmem =>
          Bool.false_ne_true (hflag.symm.trans (hany.mpr hmem))
        have hroom : cache.length < c.cfgInfoMax := Nat.lt_of_not_le hfull
        rw [if_pos hflag]
        split
        · refine hnext _ ?_ fun new => merge_cons_of_new new hroom hnew
          rw [List.length_append, List.length_singleton]
          omega
        · exact ⟨⟨0, rfl⟩, fun hok => absurd (show -rtError = rtEok from hok) (by decide)⟩
      · rw [if_neg hflag]
        rw [Bool.not_eq_false] at hflag
        exact hnext cache hlen fun new => merge_cons_of_mem new (hany.mp hflag)

/-- A refresh refuses what it reads, or merges it. -/
theorem rtWlanCfgCacheRefresh_cases {junk : ℕ → U8} {r : ℤ}
    (h : w.rtWlanCfgCacheRefresh c heap junk = some (r, w')) :
    (r = -rtError ∧ w' = w) ∨ ∃ cache new, w.cfgCache = some cache ∧
      cache.length < c.cfgInfoMax ∧ r = (WlanCfg.mergeInfos c heap new cache).1 ∧
      w' = { w with cfgCache := some (WlanCfg.mergeInfos c heap new cache).2 } := by
  have hrefused : some (-rtError, w) = some (r, w') → r = -rtError ∧ w' = w := fun heq =>
    ⟨(Prod.mk.inj (Option.some.inj heq)).1.symm, (Prod.mk.inj (Option.some.inj heq)).2.symm⟩
  unfold WlanCfg.rtWlanCfgCacheRefresh at h
  split at h
  · rename_i cache getLen readCfg hcache hget hread
    dsimp only at h
    split_ifs at h with hfull hpos hserved hover hret hshort hbad
    · exact .inl (hrefused h)
    · exact .inl (hrefused h)
    · exact .inl (hrefused h)
    · exact .inl (hrefused h)
    · exact .inl (hrefused h)
    · obtain ⟨rfl, rfl⟩ := Prod.mk.inj (Option.some.inj h)
      exact .inr ⟨cache, _, hcache, Nat.lt_of_not_le hfull, rfl, rfl⟩
  · exact .inl (hrefused h)

/-! ## Runs -/

/-- The cache, if there is one, is that of a run. -/
def Good (c : WlanCfgConfig) (w : WlanCfg E) : Prop :=
  ∀ cache, w.cfgCache = some cache → Cached c cache

theorem Good.init (h : Good c w) (heap : WlanHeap) : Good c (w.rtWlanCfgInit heap) := by
  intro cache hcache
  unfold WlanCfg.rtWlanCfgInit at hcache
  split at hcache
  · dsimp only at hcache
    split at hcache
    · exact Option.some.inj hcache ▸ .nil c
    · cases hcache
  · exact h cache hcache

theorem rtWlanCfgInit_init (heap : WlanHeap) (w : WlanCfg E) :
    (w.rtWlanCfgInit heap).rtWlanCfgInit heap = w.rtWlanCfgInit heap := by
  cases hcache : w.cfgCache with
  | some cache => rw [rtWlanCfgInit_some hcache, rtWlanCfgInit_some hcache]
  | none =>
    have hinit : w.rtWlanCfgInit heap =
        { w with cfgCache := if rtMallocServes heap.init sizeofCfgDes then some [] else none } := by
      rw [WlanCfg.rtWlanCfgInit, hcache]
    rw [hinit]
    split
    · exact rtWlanCfgInit_some rfl
    · rename_i hserved
      rw [WlanCfg.rtWlanCfgInit]
      simp only [if_neg hserved]

theorem rtWlanCfgSave_init (junk : RtWlanCfgInfo) (cfgInfo : Option RtWlanCfgInfo) :
    (w.rtWlanCfgInit heap).rtWlanCfgSave c heap junk cfgInfo =
      w.rtWlanCfgSave c heap junk cfgInfo := by
  unfold WlanCfg.rtWlanCfgSave
  rw [rtWlanCfgInit_init]

theorem touch_cached (h : Cached c cache) (info : RtWlanCfgInfo) :
    Cached c (touch RtWlanCfgInfo.network c.cfgInfoMax info cache) :=
  ⟨length_touch info cache, distinct_touch h.distinct info⟩

/-- What is saved is the first entry, with its key. -/
theorem touch_isFirst (info : RtWlanCfgInfo) :
    IsFirst (touch RtWlanCfgInfo.network c.cfgInfoMax info cache) info := by
  obtain ⟨n, hn⟩ : ∃ n, c.cfgInfoMax = n + 1 := ⟨c.cfgInfoMax - 1, by have := c.max_pos; omega⟩
  rw [touch, hn, List.take_succ_cons]
  exact ⟨info, _, rfl, rfl, decide_eq_true ⟨rfl, rfl⟩⟩

/-- **A save of the first entry** does nothing. -/
theorem rtWlanCfgSave_first (h : Cached c cache) (hw : w.cfgCache = some cache)
    (hssid : info.ssidLen ≠ 0) (hfirst : IsFirst cache info) (junk : RtWlanCfgInfo) :
    w.rtWlanCfgSave c heap junk (some info) = some (rtEok, w) := by
  obtain ⟨-, heq⟩ | ⟨hroom, -⟩ | ⟨hnot, -, -⟩ := rtWlanCfgSave_cases heap h hw hssid junk
  · exact heq
  · obtain ⟨old, rest, rfl, hnetwork, -⟩ := hfirst
    exact absurd (List.mem_map.mpr ⟨old, List.mem_cons_self, hnetwork⟩) hroom.1
  · exact absurd hfirst hnot

/-- A save only makes the cache, or writes a new one. -/
theorem rtWlanCfgSave_store {junk : RtWlanCfgInfo} {cfgInfo : Option RtWlanCfgInfo} {r : ℤ}
    (h : Good c w) (hsave : w.rtWlanCfgSave c heap junk cfgInfo = some (r, w')) :
    w' = w.rtWlanCfgInit heap ∨ ∃ cache, Cached c cache ∧
      WlanCfg.rtWlanCfgCacheSave heap { w.rtWlanCfgInit heap with cfgCache := some cache } =
        some (r, w') := by
  rw [← rtWlanCfgSave_init] at hsave
  have hinit := rtWlanCfgInit_init heap w
  have hsame : ∀ {r' : ℤ}, some (r', w.rtWlanCfgInit heap) = some (r, w') →
      w' = w.rtWlanCfgInit heap := fun heq => (Prod.mk.inj (Option.some.inj heq)).2.symm
  cases cfgInfo with
  | none =>
    unfold WlanCfg.rtWlanCfgSave at hsave
    rw [hinit] at hsave
    exact .inl (hsame hsave)
  | some info =>
    by_cases hssid : info.ssidLen = 0
    · unfold WlanCfg.rtWlanCfgSave at hsave
      rw [hinit] at hsave
      simp only [if_pos hssid] at hsave
      exact .inl (hsame hsave)
    · cases hcache : (w.rtWlanCfgInit heap).cfgCache with
      | none =>
        unfold WlanCfg.rtWlanCfgSave at hsave
        rw [hinit] at hsave
        simp only [if_neg hssid, hcache, Option.bind_none] at hsave
        cases hsave
      | some cache =>
        have hcached := h.init heap cache hcache
        obtain ⟨-, heq⟩ | ⟨-, heq⟩ | ⟨-, -, heq⟩ :=
          rtWlanCfgSave_cases heap hcached hcache hssid junk
        · exact .inl (hsame (heq.symm.trans hsave))
        · exact .inl (hsame (heq.symm.trans hsave))
        · exact .inr ⟨_, touch_cached hcached info, heq.symm.trans hsave⟩

theorem Good.save {junk : RtWlanCfgInfo} {cfgInfo : Option RtWlanCfgInfo} {r : ℤ} (h : Good c w)
    (hsave : w.rtWlanCfgSave c heap junk cfgInfo = some (r, w')) : Good c w' := by
  obtain rfl | ⟨cache, hcached, hwrite⟩ := rtWlanCfgSave_store h hsave
  · exact h.init heap
  · intro cache' hcache'
    rw [(rtWlanCfgCacheSave_cache hwrite).1] at hcache'
    exact Option.some.inj hcache' ▸ hcached

/-- **Every call** but `rt_wlan_cfg_read` keeps the cache. -/
theorem Good.exec {call : WlanCall E} (h : Good c w) (hread : ∀ buff num, call ≠ .read buff num)
    (hexec : call.exec c heap w = some w') : Good c w' := by
  have hinit := h.init heap
  cases call with
  | init => exact Option.some.inj hexec ▸ hinit
  | setOps ops =>
    obtain rfl := Option.some.inj hexec
    exact hinit
  | cacheSave =>
    obtain ⟨⟨r, w₁⟩, hsave, rfl⟩ := Option.map_eq_some_iff.mp hexec
    intro cache hcache
    exact h cache ((rtWlanCfgCacheSave_cache hsave).1 ▸ hcache)
  | cacheRefresh junk =>
    obtain ⟨⟨r, w₁⟩, hrefresh, rfl⟩ := Option.map_eq_some_iff.mp hexec
    obtain ⟨-, rfl⟩ | ⟨cache, new, hcache, hlen, -, rfl⟩ := rtWlanCfgCacheRefresh_cases hrefresh
    · exact h
    · obtain ⟨⟨k, hk⟩, -⟩ := mergeInfos_merge heap new (Nat.le_of_lt hlen)
      intro cache' hcache'
      obtain rfl := Option.some.inj hcache'
      rw [hk]
      exact ⟨length_merge _ (Nat.le_of_lt hlen), distinct_merge _ (h cache hcache).distinct⟩
  | getNum =>
    obtain ⟨⟨r, w₁⟩, hnum, rfl⟩ := Option.map_eq_some_iff.mp hexec
    obtain ⟨cache, -, heq⟩ := Option.map_eq_some_iff.mp hnum
    exact (Prod.mk.inj heq).2 ▸ hinit
  | read buff num => exact absurd rfl (hread buff num)
  | save junk cfgInfo =>
    obtain ⟨⟨r, w₁⟩, hsave, rfl⟩ := Option.map_eq_some_iff.mp hexec
    exact h.save hsave
  | readIndex index =>
    obtain ⟨⟨r, w₁⟩, hindex, rfl⟩ := Option.map_eq_some_iff.mp hexec
    unfold WlanCfg.rtWlanCfgReadIndex at hindex
    split at hindex
    · obtain ⟨-, rfl⟩ := Prod.mk.inj (Option.some.inj hindex)
      exact hinit
    · obtain ⟨cache, -, heq⟩ := Option.map_eq_some_iff.mp hindex
      split at heq <;> exact (Prod.mk.inj heq).2 ▸ hinit
  | deleteIndex index =>
    obtain ⟨⟨r, w₁⟩, hdelete, rfl⟩ := Option.map_eq_some_iff.mp hexec
    unfold WlanCfg.rtWlanCfgDeleteIndex at hdelete
    split at hdelete
    · obtain ⟨-, rfl⟩ := Prod.mk.inj (Option.some.inj hdelete)
      exact hinit
    · obtain ⟨cache, hcache, heq⟩ := Option.map_eq_some_iff.mp hdelete
      split_ifs at heq <;> obtain ⟨-, rfl⟩ := Prod.mk.inj heq
      · exact hinit
      · intro cache' hcache'
        obtain rfl := Option.some.inj hcache'
        rw [← List.eraseIdx_eq_take_drop_succ]
        exact (hinit cache hcache).sublist (List.eraseIdx_sublist _ _)
      · exact hinit
  | deleteAll =>
    obtain ⟨cache, -, rfl⟩ := Option.map_eq_some_iff.mp hexec
    intro cache' hcache'
    exact Option.some.inj hcache' ▸ .nil c

theorem WlanRuns.good {kind : WlanCall E → Prop} {env : E}
    (hkind : ∀ call, kind call → ∀ buff num, call ≠ .read buff num)
    (h : WlanRuns c kind (wlanReset env) w) : Good c w := by
  induction h with
  | refl => exact nofun
  | call _ heap call hcall hexec ih => exact ih.exec (hkind call hcall) hexec

/-- **The cache of every run** holds at most `RT_WLAN_CFG_INFO_MAX` different networks. A save puts its
entry to the front in place of the one of its network, the last one going when there is no room, or
leaves all as it is; a refresh adds networks of the store behind. -/
theorem wlan_recent {env : E}
    (h : WlanRuns c (fun call => ∀ buff num, call ≠ .read buff num) (wlanReset env) w)
    (hw : w.cfgCache = some cache) :
    cache.length ≤ c.cfgInfoMax ∧ (cache.map RtWlanCfgInfo.network).Nodup ∧
      (∀ heap junk info r w', info.ssidLen ≠ 0 →
        w.rtWlanCfgSave c heap junk (some info) = some (r, w') →
        (w' = w ∧ (r = rtEok ∧ IsFirst cache info ∨ r = -rtEnomem ∧ NoRoom c heap cache info)) ∨
          w'.cfgCache = some (touch RtWlanCfgInfo.network c.cfgInfoMax info cache)) ∧
      ∀ heap junk r w', w.rtWlanCfgCacheRefresh c heap junk = some (r, w') →
        ∃ new, w'.cfgCache = some (merge RtWlanCfgInfo.network c.cfgInfoMax new cache) := by
  have hcached := h.good (fun _ hcall => hcall) cache hw
  refine ⟨hcached.length_le, hcached.distinct, fun heap junk info r w' hssid hsave => ?_,
    fun heap junk r w' hrefresh => ?_⟩
  · obtain ⟨hfirst, heq⟩ | ⟨hroom, heq⟩ | ⟨-, -, heq⟩ :=
      rtWlanCfgSave_cases heap hcached hw hssid junk
    · rw [heq] at hsave
      obtain ⟨rfl, rfl⟩ := Prod.mk.inj (Option.some.inj hsave)
      exact .inl ⟨rfl, .inl ⟨rfl, hfirst⟩⟩
    · rw [heq] at hsave
      obtain ⟨rfl, rfl⟩ := Prod.mk.inj (Option.some.inj hsave)
      exact .inl ⟨rfl, .inr ⟨rfl, hroom⟩⟩
    · rw [heq] at hsave
      exact .inr (rtWlanCfgCacheSave_cache hsave).1
  · obtain ⟨-, rfl⟩ | ⟨cache', new, hcache', hlen, -, rfl⟩ := rtWlanCfgCacheRefresh_cases hrefresh
    · exact ⟨[], hw⟩
    · obtain rfl := Option.some.inj (hw.symm.trans hcache')
      obtain ⟨⟨k, hk⟩, -⟩ := mergeInfos_merge heap new (Nat.le_of_lt hlen)
      exact ⟨_, congrArg some hk⟩

/-- An entry of a network without a key: the SSID is one character. -/
def openNetwork (ch : U8) : RtWlanCfgInfo := .ofBytes (List.replicate 16 0 ++ [1, ch])

/-- All the memory that is asked for. -/
def fullHeap : WlanHeap := ⟨fun _ => true, fun _ => true, fun _ => true, fun _ => true⟩

/-- Two networks are saved, and the older one again. -/
theorem wlan_recent_two :
    ∃ w : WlanCfg Unit, w.cfgCache = some [openNetwork 66, openNetwork 65] ∧
      ([openNetwork 66, openNetwork 65].map RtWlanCfgInfo.network).Nodup ∧
      ∀ r w', w.rtWlanCfgSave ⟨3, by decide⟩ fullHeap (openNetwork 0) (some (openNetwork 65)) =
        some (r, w') → w' = w ∨ w'.cfgCache = some (touch RtWlanCfgInfo.network 3 (openNetwork 65)
          [openNetwork 66, openNetwork 65]) := by
  have hrun : WlanRuns ⟨3, by decide⟩ (fun call => ∀ buff num, call ≠ .read buff num)
      (wlanReset ()) ⟨some [openNetwork 66, openNetwork 65], none, ()⟩ := by
    refine .call (w := ⟨some [openNetwork 65], none, ()⟩) ?_ fullHeap
      (.save (openNetwork 0) (some (openNetwork 66))) nofun rfl
    exact .call .refl fullHeap (.save (openNetwork 0) (some (openNetwork 65))) nofun rfl
  obtain ⟨-, hdistinct, hsave, -⟩ := wlan_recent hrun rfl
  refine ⟨⟨some [openNetwork 66, openNetwork 65], none, ()⟩, rfl, hdistinct, fun r w' h => ?_⟩
  exact (hsave fullHeap (openNetwork 0) (openNetwork 65) r w' (by decide) h).imp And.left id

end LowPower
