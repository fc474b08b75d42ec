import Upmpdcli.Lib.Machine
import Upmpdcli.Cdplugins.PlgWithSlave

set_option autoImplicit false

namespace Upmpdcli

namespace PlgWithSlave

open ContentCacheEntry

variable {decode : String → Option Json} {listing : List UpSong}

/-- The entries of an answer, as they are decoded with no filter. -/
def Decodes (decode : String → Option Json) (res : SlaveResult) (entries : List UpSong) : Prop :=
  ∃ encoded size, res "entries" = some encoded ∧ decodeResult decode encoded "" = (entries, some size)

/-- The two answers a slave may give for `(stidx, cnt)`: the whole list, or enough of it
from `stidx` on with the place of this slice. -/
inductive Answers (decode : String → Option Json) (listing : List UpSong) (stidx cnt : Int)
    (res : SlaveResult) : Prop
  | whole (decodes : Decodes decode res listing) (offset : res.offset = 0)
      (total : res.total = -1 ∨ res.total = listing.length)
  | slice (entries : List UpSong) (decodes : Decodes decode res entries)
      (part : entries <+: listing.drop stidx.toNat) (offset : res.offset = stidx)
      (total : res.total = listing.length)
      (enough : (listing.length : Int) ≤ stidx + entries.length ∨
        (0 < cnt ∧ cnt ≤ entries.length))

/-- The slave runs, and answers one call from this list. -/
def Serves (decode : String → Option Json) (listing : List UpSong) (env : SlaveEnv) (proc : String)
    (args : List (String × String)) (stidx cnt : Int) : Prop :=
  env.running = true ∧
    ∃ res, env.callproc proc args = some res ∧ Answers decode listing stidx cnt res

/-- `stidx` and `cnt` as a control point can send them. -/
def Asked (stidx cnt : Int) : Prop := (0 ≤ stidx ∧ stidx < 2 ^ 31) ∧ 0 ≤ cnt ∧ cnt < 2 ^ 31

/-- The page of a list which a request is about, with the size of the list. -/
def answer (listing : List UpSong) (stidx cnt : Int) : Option (Int × List UpSong) :=
  some ((listing.length : Int), Paging.page listing stidx.toNat cnt.toNat)

theorem Answers.entries {stidx cnt : Int} {res : SlaveResult}
    (answers : Answers decode listing stidx cnt res) : ∃ encoded, res "entries" = some encoded := by
  cases answers with
  | whole decodes =>
      obtain ⟨encoded, _, found, -⟩ := decodes
      exact ⟨encoded, found⟩
  | slice entries decodes =>
      obtain ⟨encoded, _, found, -⟩ := decodes
      exact ⟨encoded, found⟩

/-- Storing an answer of the slave and making a result from it. -/
theorem storeResult_of_answers (fits : (listing.length : Int) < 2 ^ 31) {stidx cnt : Int}
    (nonneg : 0 ≤ stidx) {res : SlaveResult} {classfilter : String}
    (passes : ∀ song ∈ listing, Smallut.beginswith song.upnpClass classfilter = true)
    (answers : Answers decode listing stidx cnt res) (cache : ContentCache) (key : String)
    (env : SlaveEnv) (encoded : String) (found : res "entries" = some encoded) :
    ∃ e, Holds listing e ∧
      storeResult decode cache key env res encoded classfilter stidx cnt =
        (if res.nocache then cache else cache.set key e, answer listing stidx cnt) := by
  have filtered (entries : List UpSong) (size : Nat)
      (decodes : decodeResult decode encoded "" = (entries, some size))
      (part : ∀ song ∈ entries, song ∈ listing) :
      decodeResult decode encoded classfilter = (entries, some size) := by
    unfold decodeResult at decodes ⊢
    split at decodes
    · rename_i decoded read
      rw [resultToEntries_filter, decodes]
      congr 1
      exact List.filter_eq_self.mpr fun song member => passes song (part song member)
    · cases decodes
  obtain ⟨entries, size, run, holds, reaches⟩ : ∃ entries size,
      decodeResult decode encoded classfilter = (entries, some size) ∧
        Holds listing ⟨env.done, res.offset, res.total, entries⟩ ∧
        Reaches ⟨env.done, res.offset, res.total, entries⟩ stidx cnt := by
    cases answers with
    | whole decodes offset total =>
        obtain ⟨text, size, found', run⟩ := decodes
        cases found.symm.trans found'
        have holds : Holds listing ⟨env.done, res.offset, res.total, listing⟩ :=
          ⟨by simp [offset], by simp [offset], total.symm.imp_right fun none => ⟨none, offset, rfl⟩⟩
        refine ⟨listing, size, filtered _ _ run (fun _ member => member), holds, ?_, .inl ?_⟩
        · simpa [offset] using nonneg
        · rw [holds.total_eq fits]
          simp [offset]
    | slice entries decodes part offset total enough =>
        obtain ⟨text, size, found', run⟩ := decodes
        cases found.symm.trans found'
        have holds : Holds listing ⟨env.done, res.offset, res.total, entries⟩ :=
          ⟨by simpa [offset] using nonneg, by simpa [offset] using part, .inl total⟩
        refine ⟨entries, size,
          filtered _ _ run (fun _ member => List.mem_of_mem_drop (part.subset member)), holds,
          by simp [offset], ?_⟩
        rw [holds.total_eq fits]
        simp only [offset]
        rcases enough with end_ | ⟨positive, enough⟩
        · exact .inl end_
        · exact .inr (.inr ⟨positive, by omega⟩)
  refine ⟨_, holds, ?_⟩
  simp only [storeResult, run, Option.map_some, answer]
  rw [holds.toResult_of_reaches fits reaches]

theorem page_adjustCnt {cep : ContentCacheEntry} (holds : Holds listing cep) {stidx cnt : Int}
    (asked : Asked stidx cnt) :
    (adjustCnt cep stidx cnt = cnt ∨ adjustCnt cep stidx cnt = listing.length - stidx) ∧
      answer listing stidx (adjustCnt cep stidx cnt) = answer listing stidx cnt := by
  obtain ⟨⟨_, _⟩, _, _⟩ := asked
  unfold adjustCnt
  split
  · rename_i adjusted
    obtain ⟨positive, past⟩ := adjusted
    have total : cep.m_total = listing.length := by
      rcases holds.total with total | ⟨none, -, -⟩
      · exact total
      · omega
    have whole := wrap32_le (show 0 ≤ cnt + stidx by omega)
    rw [total] at past ⊢
    refine ⟨.inr rfl, ?_⟩
    rw [answer, answer, Paging.page_of_rest_le listing (by omega),
      Paging.page_of_rest_le listing (by omega)]
  · exact ⟨.inl rfl, rfl⟩

/-- The hit of the cache check which gives a wrong answer: all the rest is asked for, and
the entry is a slice which begins before `stidx` and ends before the list does. -/
def PartialHit (cep : ContentCacheEntry) (stidx cnt : Int) : Prop :=
  cnt = 0 ∧ cep.m_offset ≤ stidx ∧ stidx ≤ cep.m_offset + cep.m_results.length ∧
    cep.m_offset + cep.m_results.length < cep.total

instance (cep : ContentCacheEntry) (stidx cnt : Int) : Decidable (PartialHit cep stidx cnt) :=
  inferInstanceAs (Decidable (_ ∧ _))

theorem reaches_of_hit (fits : (listing.length : Int) < 2 ^ 31) {cep : ContentCacheEntry}
    (holds : Holds listing cep) {stidx cnt : Int} (asked : Asked stidx cnt)
    (whole : ¬PartialHit cep stidx cnt)
    (hit : cep.m_offset ≤ stidx ∧
      wrap32 cep.m_results.length - (stidx - cep.m_offset) ≥ adjustCnt cep stidx cnt) :
    cep.Reaches stidx (adjustCnt cep stidx cnt) := by
  obtain ⟨⟨_, _⟩, _, _⟩ := asked
  have size := holds.length_le
  have total := holds.total_eq fits
  obtain ⟨later, enough⟩ := hit
  rw [wrap32_of_fits (by omega) (by omega)] at enough
  unfold adjustCnt at enough ⊢
  unfold PartialHit at whole
  split
  · rename_i adjusted
    rw [if_pos adjusted] at enough
    have whole : cep.total = cep.m_total := by
      rw [ContentCacheEntry.total, if_neg (by omega)]
    exact ⟨later, .inl (by omega)⟩
  · rename_i kept
    rw [if_neg kept] at enough
    refine ⟨later, ?_⟩
    by_cases all : cnt = 0
    · exact .inl (by omega)
    · exact .inr (.inr ⟨by omega, by omega⟩)

/-- The entries of a cache under one key all come from the list. -/
def CacheHolds (listing : List UpSong) (cache : ContentCache) (key : String) : Prop :=
  ∀ cep, cache.m_cache key = some cep → Holds listing cep

theorem CacheHolds.purge {cache : ContentCache} {key : String}
    (kept : CacheHolds listing cache key) (now : Int) :
    CacheHolds listing (cache.purge now) key :=
  fun cep found => kept cep (ContentCache.purge_eq_some found)

theorem CacheHolds.set {cache : ContentCache} {key : String} {e : ContentCacheEntry}
    (kept : CacheHolds listing cache key) (holds : Holds listing e) (nocache : Bool) :
    CacheHolds listing (if nocache then cache else cache.set key e) key := by
  cases nocache with
  | true => exact kept
  | false =>
      intro cep found
      simp only [Bool.false_eq_true, ↓reduceIte, ContentCache.set, Option.some.injEq] at found
      exact found ▸ holds

section Browse

variable {objid : String} {stidx cnt : Int} {env : SlaveEnv} {s : PlgWithSlave}

theorem browseSlave_of_serves (fits : (listing.length : Int) < 2 ^ 31) (nonneg : 0 ≤ stidx)
    (serves : Serves decode listing env "browse" (browseArgs objid "children" stidx cnt) stidx cnt)
    (kept : CacheHolds listing s.bcache (s.browseKey objid)) :
    CacheHolds listing (browseSlave decode s objid stidx cnt .bfChildren env).1.bcache
        (s.browseKey objid) ∧
      (browseSlave decode s objid stidx cnt .bfChildren env).2 = answer listing stidx cnt := by
  obtain ⟨-, res, called, answers⟩ := serves
  obtain ⟨encoded, found⟩ := answers.entries
  have passes : ∀ song ∈ listing, Smallut.beginswith song.upnpClass "" = true := by simp
  obtain ⟨e, holds, stored⟩ := storeResult_of_answers fits nonneg passes answers s.bcache
    (s.browseKey objid) env encoded found
  simp only [browseSlave, BrowseFlag.sbflg, called, found, stored]
  exact ⟨kept.set holds res.nocache, trivial⟩

theorem browse_children (fits : (listing.length : Int) < 2 ^ 31) (asked : Asked stidx cnt)
    (serves : ∀ count, count = cnt ∨ count = listing.length - stidx →
      Serves decode listing env "browse" (browseArgs objid "children" stidx count) stidx count)
    (kept : CacheHolds listing s.bcache (s.browseKey objid))
    (whole : ∀ cep, (s.bcache.get env.now (s.browseKey objid)).1 = some cep →
      ¬PartialHit cep stidx cnt) :
    CacheHolds listing (browse decode s objid stidx cnt .bfChildren env).1.bcache
        (s.browseKey objid) ∧
      (browse decode s objid stidx cnt .bfChildren env).2 = answer listing stidx cnt := by
  have purged := kept.purge env.now
  have running := (serves cnt (.inl rfl)).1
  simp only [browse, running, ↓reduceIte, ContentCache.get] at whole ⊢
  cases found : (s.bcache.purge env.now).m_cache (s.browseKey objid) with
  | none =>
      exact browseSlave_of_serves (s := { s with bcache := s.bcache.purge env.now }) fits
        asked.1.1 (serves cnt (.inl rfl)) purged
  | some cep =>
      have holds := purged cep found
      obtain ⟨count, same⟩ := page_adjustCnt holds asked
      dsimp only
      split
      · rename_i hit
        refine ⟨purged, ?_⟩
        have reaches := reaches_of_hit fits holds asked (whole cep found) hit
        rw [← same, holds.toResult_of_reaches fits reaches]
        rfl
      · rw [← same]
        exact browseSlave_of_serves (s := { s with bcache := s.bcache.purge env.now }) fits
          asked.1.1 (serves _ count) purged

end Browse

section Search

variable {ctid searchstr : String} {slots : Eli5} {stidx cnt : Int} {env : SlaveEnv}
  {s : PlgWithSlave}

theorem search_of_serves (fits : (listing.length : Int) < 2 ^ 31) (asked : Asked stidx cnt)
    (parsed : eli5 searchstr = some slots)
    (passes : ∀ song ∈ listing, Smallut.beginswith song.upnpClass slots.classfilter = true)
    (serves : Serves decode listing env "search" (searchArgs ctid searchstr slots stidx cnt) stidx
      cnt)
    (kept : CacheHolds listing s.scache (s.searchKey ctid searchstr))
    (reaches : ∀ cep, (s.scache.get env.now (s.searchKey ctid searchstr)).1 = some cep →
      cep.Reaches stidx cnt) :
    CacheHolds listing (search decode s ctid stidx cnt searchstr env).1.scache
        (s.searchKey ctid searchstr) ∧
      (search decode s ctid stidx cnt searchstr env).2 = answer listing stidx cnt := by
  have purged := kept.purge env.now
  simp only [search, serves.1, ↓reduceIte, parsed, ContentCache.get] at reaches ⊢
  cases found : (s.scache.purge env.now).m_cache (s.searchKey ctid searchstr) with
  | some cep =>
      refine ⟨purged, ?_⟩
      dsimp only
      rw [(purged cep found).toResult_of_reaches fits (reaches cep found)]
      rfl
  | none =>
      obtain ⟨-, res, called, answers⟩ := serves
      obtain ⟨encoded, entries⟩ := answers.entries
      obtain ⟨e, holds, stored⟩ := storeResult_of_answers fits asked.1.1 passes answers
        (s.scache.purge env.now) (s.searchKey ctid searchstr) env encoded entries
      have key : ({ s with scache := s.scache.purge env.now } : PlgWithSlave).searchKey ctid
          searchstr = s.searchKey ctid searchstr := rfl
      simp only [called, entries, key, stored]
      exact ⟨purged.set holds res.nocache, trivial⟩

end Search

section Frame

/-- Storing a result writes under one key. -/
theorem storeResult_frame (cache : ContentCache) {key other : String} (apart : other ≠ key)
    (stidx cnt : Int) (env : SlaveEnv) (res : SlaveResult) (encoded classfilter : String) :
    (storeResult decode cache key env res encoded classfilter stidx cnt).1.m_cache other =
      cache.m_cache other := by
  simp only [storeResult]
  split
  · rfl
  · simp only [ContentCache.set, apart, ↓reduceIte]

theorem browseSlave_frame (decode : String → Option Json) (s : PlgWithSlave) (objid : String)
    (stidx cnt : Int) (env : SlaveEnv) (flg : BrowseFlag) :
    ∃ bcache, (browseSlave decode s objid stidx cnt flg env).1 = { s with bcache := bcache } ∧
      ∀ other, (flg = .bfMeta ∨ other ≠ s.browseKey objid) →
        bcache.m_cache other = s.bcache.m_cache other := by
  unfold browseSlave
  cases env.callproc "browse" (browseArgs objid flg.sbflg stidx cnt) with
  | none => exact ⟨s.bcache, rfl, fun _ _ => rfl⟩
  | some res =>
      dsimp only
      cases res "entries" with
      | none => exact ⟨s.bcache, rfl, fun _ _ => rfl⟩
      | some encoded =>
          cases flg with
          | bfMeta => exact ⟨s.bcache, rfl, fun _ _ => rfl⟩
          | bfChildren =>
              refine ⟨_, rfl, fun other apart => ?_⟩
              exact storeResult_frame s.bcache (by simpa using apart) stidx cnt env res encoded ""

/-- A browse request only adds to the cache under the key of its container. -/
theorem browse_frame (decode : String → Option Json) (s : PlgWithSlave) (objid : String)
    (stidx cnt : Int) (flg : BrowseFlag) (env : SlaveEnv) :
    ∃ bcache, (browse decode s objid stidx cnt flg env).1 = { s with bcache := bcache } ∧
      ∀ other cep, (flg = .bfMeta ∨ other ≠ s.browseKey objid) →
        bcache.m_cache other = some cep → s.bcache.m_cache other = some cep := by
  unfold browse
  split
  · cases flg with
    | bfMeta =>
        obtain ⟨bcache, same, others⟩ := browseSlave_frame decode s objid stidx cnt env .bfMeta
        exact ⟨bcache, same, fun other _ apart found => others other apart ▸ found⟩
    | bfChildren =>
        simp only [ContentCache.get]
        have slave (cnt : Int) := browseSlave_frame decode
          { s with bcache := s.bcache.purge env.now } objid stidx cnt env .bfChildren
        have purged (bcache : ContentCache) (other : String) (cep : ContentCacheEntry)
            (same : bcache.m_cache other = (s.bcache.purge env.now).m_cache other)
            (found : bcache.m_cache other = some cep) : s.bcache.m_cache other = some cep :=
          ContentCache.purge_eq_some (same ▸ found)
        cases (s.bcache.purge env.now).m_cache (s.browseKey objid) with
        | none =>
            obtain ⟨bcache, same, others⟩ := slave cnt
            exact ⟨bcache, same, fun other cep apart => purged _ _ _ (others other apart)⟩
        | some cep =>
            dsimp only
            split
            · exact ⟨_, rfl, fun other cep _ => purged _ _ _ rfl⟩
            · obtain ⟨bcache, same, others⟩ := slave (adjustCnt cep stidx cnt)
              exact ⟨bcache, same, fun other cep apart => purged _ _ _ (others other apart)⟩
  · exact ⟨s.bcache, rfl, fun _ _ _ found => found⟩

/-- A search request changes the other cache. -/
theorem search_frame (decode : String → Option Json) (s : PlgWithSlave) (ctid : String)
    (stidx cnt : Int) (searchstr : String) (env : SlaveEnv) :
    ∃ scache, (search decode s ctid stidx cnt searchstr env).1 = { s with scache := scache } := by
  unfold search
  split
  · cases eli5 searchstr with
    | none => exact ⟨s.scache, rfl⟩
    | some slots =>
        simp only [ContentCache.get]
        cases (s.scache.purge env.now).m_cache (s.searchKey ctid searchstr) with
        | some cep => exact ⟨_, rfl⟩
        | none =>
            dsimp only
            split
            · exact ⟨_, rfl⟩
            · split <;> exact ⟨_, rfl⟩
  · exact ⟨s.scache, rfl⟩

end Frame

section Runs

variable {objid ctid searchstr : String}

/-- The browse requests on the container are well formed, and the slave answers them from
its list, be it asked for `cnt` or for what remains. The other requests are any. -/
def BrowseServed (decode : String → Option Json) (listing : List UpSong) (objid : String) :
    Request → Prop
  | .browse id stidx cnt .bfChildren env =>
      id = objid → Asked stidx cnt ∧ ∀ count, count = cnt ∨ count = listing.length - stidx →
        Serves decode listing env "browse" (browseArgs objid "children" stidx count) stidx count
  | _ => True

/-- No request on the container makes a partial hit. -/
def BrowseGuard (objid : String) (s : PlgWithSlave) (request : Request) : Prop :=
  match request with
  | .browse id stidx cnt .bfChildren env =>
      id = objid → ∀ cep ∈ (s.bcache.get env.now (s.browseKey objid)).1,
        ¬PartialHit cep stidx cnt
  | _ => True

/-- An answer about the container is a page of its list, with the size of the list. -/
def BrowseAnswered (listing : List UpSong) (objid : String) (request : Request)
    (out : Option (Int × List UpSong)) : Prop :=
  match request with
  | .browse id stidx cnt .bfChildren _ => id = objid → out = answer listing stidx cnt
  | _ => True

/-- The same three about one search, when it is the only one. -/
def SearchServed (decode : String → Option Json) (listing : List UpSong)
    (ctid searchstr : String) : Request → Prop
  | .search id stidx cnt what env =>
      id = ctid ∧ what = searchstr ∧ Asked stidx cnt ∧ ∃ slots, eli5 searchstr = some slots ∧
        (∀ song ∈ listing, Smallut.beginswith song.upnpClass slots.classfilter = true) ∧
        Serves decode listing env "search" (searchArgs ctid searchstr slots stidx cnt) stidx cnt
  | _ => True

def SearchGuard (ctid searchstr : String) (s : PlgWithSlave) (request : Request) : Prop :=
  match request with
  | .search _ stidx cnt _ env =>
      ∀ cep ∈ (s.scache.get env.now (s.searchKey ctid searchstr)).1, cep.Reaches stidx cnt
  | _ => True

def SearchAnswered (listing : List UpSong) (request : Request)
    (out : Option (Int × List UpSong)) : Prop :=
  match request with
  | .search _ stidx cnt _ _ => out = answer listing stidx cnt
  | _ => True

instance (s : PlgWithSlave) (request : Request) : Decidable (BrowseGuard objid s request) := by
  unfold BrowseGuard
  split <;> infer_instance

instance (s : PlgWithSlave) (request : Request) :
    Decidable (SearchGuard ctid searchstr s request) := by
  unfold SearchGuard
  split <;> infer_instance

instance (listing : List UpSong) (request : Request) (out : Option (Int × List UpSong)) :
    Decidable (BrowseAnswered listing objid request out) := by
  unfold BrowseAnswered
  split <;> infer_instance

instance (listing : List UpSong) (request : Request) (out : Option (Int × List UpSong)) :
    Decidable (SearchAnswered listing request out) := by
  unfold SearchAnswered
  split <;> infer_instance

theorem step_browse_iff (decode : String → Option Json) (s t : PlgWithSlave) (id : String)
    (stidx cnt : Int) (flg : BrowseFlag) (env : SlaveEnv) (out : Option (Int × List UpSong)) :
    step decode s (.browse id stidx cnt flg env) = some (t, out) ↔
      t = (browse decode s id stidx cnt flg env).1 ∧
        out = (browse decode s id stidx cnt flg env).2 := by
  simp only [step, Option.some.injEq, Prod.ext_iff, eq_comm]

theorem step_search_iff (decode : String → Option Json) (s t : PlgWithSlave) (id : String)
    (stidx cnt : Int) (what : String) (env : SlaveEnv) (out : Option (Int × List UpSong)) :
    step decode s (.search id stidx cnt what env) = some (t, out) ↔
      t = (search decode s id stidx cnt what env).1 ∧
        out = (search decode s id stidx cnt what env).2 := by
  simp only [step, Option.some.injEq, Prod.ext_iff, eq_comm]

theorem browse_step (fits : (listing.length : Int) < 2 ^ 31) {s t : PlgWithSlave}
    {request : Request} {out : Option (Int × List UpSong)}
    (kept : CacheHolds listing s.bcache (s.browseKey objid))
    (guard : BrowseGuard objid s request) (served : BrowseServed decode listing objid request)
    (taken : step decode s request = some (t, out)) :
    CacheHolds listing t.bcache (t.browseKey objid) ∧ BrowseAnswered listing objid request out := by
  cases request with
  | search id stidx cnt what env =>
      obtain ⟨rfl, rfl⟩ := (step_search_iff _ _ _ _ _ _ _ _ _).mp taken
      obtain ⟨scache, same⟩ := search_frame decode s id stidx cnt what env
      rw [same]
      exact ⟨kept, trivial⟩
  | browse id stidx cnt flg env =>
      obtain ⟨rfl, rfl⟩ := (step_browse_iff _ _ _ _ _ _ _ _ _).mp taken
      by_cases about : flg = .bfChildren ∧ id = objid
      · obtain ⟨rfl, rfl⟩ := about
        obtain ⟨asked, serves⟩ := served rfl
        obtain ⟨after, answered⟩ := browse_children fits asked serves kept (guard rfl)
        obtain ⟨bcache, same, -⟩ := browse_frame decode s id stidx cnt .bfChildren env
        rw [same] at after ⊢
        exact ⟨after, fun _ => answered⟩
      · obtain ⟨bcache, same, others⟩ := browse_frame decode s id stidx cnt flg env
        rw [same]
        refine ⟨fun cep found => kept cep (others _ cep ?_ found), ?_⟩
        · cases flg with
          | bfMeta => exact .inl rfl
          | bfChildren =>
              refine .inr fun equal => about ⟨rfl, ?_⟩
              exact (String.append_right_inj _).mp equal.symm
        · cases flg with
          | bfMeta => trivial
          | bfChildren => exact fun equal => (about ⟨rfl, equal⟩).elim

theorem search_step (fits : (listing.length : Int) < 2 ^ 31) {s t : PlgWithSlave}
    {request : Request} {out : Option (Int × List UpSong)}
    (kept : CacheHolds listing s.scache (s.searchKey ctid searchstr))
    (guard : SearchGuard ctid searchstr s request)
    (served : SearchServed decode listing ctid searchstr request)
    (taken : step decode s request = some (t, out)) :
    CacheHolds listing t.scache (t.searchKey ctid searchstr) ∧
      SearchAnswered listing request out := by
  cases request with
  | browse id stidx cnt flg env =>
      obtain ⟨rfl, rfl⟩ := (step_browse_iff _ _ _ _ _ _ _ _ _).mp taken
      obtain ⟨bcache, same, -⟩ := browse_frame decode s id stidx cnt flg env
      rw [same]
      exact ⟨kept, trivial⟩
  | search id stidx cnt what env =>
      obtain ⟨rfl, rfl⟩ := (step_search_iff _ _ _ _ _ _ _ _ _).mp taken
      obtain ⟨rfl, rfl, asked, slots, parsed, passes, serves⟩ := served
      obtain ⟨after, answered⟩ := search_of_serves fits asked parsed passes serves kept guard
      obtain ⟨scache, same⟩ := search_frame decode s id stidx cnt what env
      rw [same] at after ⊢
      exact ⟨after, answered⟩

/-- A list of two tracks, and a slave which makes a slice for a count of one and sends
the whole list for the others. -/
def trackJson (id : String) : Json := .object [("id", .string id), ("tp", .string "it")]

def twoTracks : List UpSong := [{ id := "a" }, { id := "b" }]

def twoTracksDecode (encoded : String) : Option Json :=
  if encoded = "[a]" then some (.array [trackJson "a"])
  else if encoded = "[b]" then some (.array [trackJson "b"])
  else some (.array [trackJson "a", trackJson "b"])

def sliceResult (offset encoded : String) : SlaveResult := fun name =>
  [("entries", encoded), ("offset", offset), ("total", "2")].lookup name

def twoTracksSlave : SlaveEnv where
  now := 0
  done := 0
  running := true
  callproc _ args := some <|
    if args.lookup "count" = some "1" then
      if args.lookup "offset" = some "0" then sliceResult "0" "[a]" else sliceResult "1" "[b]"
    else fun name => [("entries", "[a, b]")].lookup name

theorem twoTracksSlave_whole (proc : String) (args : List (String × String)) (stidx cnt : Int)
    (count : args.lookup "count" ≠ some "1") :
    Serves twoTracksDecode twoTracks twoTracksSlave proc args stidx cnt := by
  refine ⟨rfl, fun name => [("entries", "[a, b]")].lookup name, ?_, ?_⟩
  · simp only [twoTracksSlave, count, ↓reduceIte]
  · exact .whole ⟨"[a, b]", 2, rfl, rfl⟩ rfl (.inl rfl)

theorem twoTracksSlave_first (proc : String) (args : List (String × String))
    (count : args.lookup "count" = some "1") (offset : args.lookup "offset" = some "0") :
    Serves twoTracksDecode twoTracks twoTracksSlave proc args 0 1 := by
  refine ⟨rfl, sliceResult "0" "[a]", ?_, ?_⟩
  · simp only [twoTracksSlave, count, offset, ↓reduceIte]
  · exact .slice [{ id := "a" }] ⟨"[a]", 1, rfl, rfl⟩ (by decide) (by decide)
      (by decide) (by decide)

theorem twoTracksSlave_second (proc : String) (args : List (String × String))
    (count : args.lookup "count" = some "1") (offset : args.lookup "offset" = some "1") :
    Serves twoTracksDecode twoTracks twoTracksSlave proc args 1 1 := by
  refine ⟨rfl, sliceResult "1" "[b]", ?_, ?_⟩
  · simp [twoTracksSlave, count, offset]
  · exact .slice [{ id := "b" }] ⟨"[b]", 1, rfl, rfl⟩ (by decide) (by decide)
      (by decide) (by decide)

theorem browseServed_first :
    BrowseServed twoTracksDecode twoTracks "c" (.browse "c" 0 1 .bfChildren twoTracksSlave) := by
  refine fun _ => ⟨by simp [Asked], ?_⟩
  rintro count (rfl | rfl)
  · exact twoTracksSlave_first _ _ (by decide) (by decide)
  · exact twoTracksSlave_whole _ _ _ _ (by decide)

theorem browseServed_second :
    BrowseServed twoTracksDecode twoTracks "c" (.browse "c" 1 1 .bfChildren twoTracksSlave) := by
  refine fun _ => ⟨by simp [Asked], ?_⟩
  rintro count (rfl | rfl)
  · exact twoTracksSlave_second _ _ (by decide) (by decide)
  · exact twoTracksSlave_second _ _ (by decide) (by decide)

theorem browseServed_rest :
    BrowseServed twoTracksDecode twoTracks "c" (.browse "c" 0 0 .bfChildren twoTracksSlave) := by
  refine fun _ => ⟨by simp [Asked], ?_⟩
  rintro count (rfl | rfl)
  · exact twoTracksSlave_whole _ _ _ _ (by decide)
  · exact twoTracksSlave_whole _ _ _ _ (by decide)

/-- A search which `eli5` accepts, and has no class clause. -/
def twoTracksSearch : String := "dc:title contains \"x\""

theorem searchServed_second :
    SearchServed twoTracksDecode twoTracks "c" twoTracksSearch
      (.search "c" 1 1 twoTracksSearch twoTracksSlave) := by
  refine ⟨rfl, rfl, by simp [Asked], ⟨"track", "x", "", ""⟩, rfl, by simp, ?_⟩
  exact twoTracksSlave_second _ _ (by decide) (by decide)

theorem searchServed_first :
    SearchServed twoTracksDecode twoTracks "c" twoTracksSearch
      (.search "c" 0 1 twoTracksSearch twoTracksSlave) := by
  refine ⟨rfl, rfl, by simp [Asked], ⟨"track", "x", "", ""⟩, rfl, by simp, ?_⟩
  exact twoTracksSlave_first _ _ (by decide) (by decide)

/-- Whatever came before, a browse answer is the page asked for, from the slave or from
the cache, as long as no request makes a partial hit. -/
theorem browse_answers_pages (decode : String → Option Json) (name : String) (start : Int)
    (listing : List UpSong) (fits : (listing.length : Int) < 2 ^ 31) (objid : String)
    (requests : List Request) (served : ∀ request ∈ requests, BrowseServed decode listing objid request)
    (guarded : Machine.Along (fun s request _ _ => BrowseGuard objid s request) (step decode)
      (init name start) requests) :
    Machine.Along (fun _ request _ out => BrowseAnswered listing objid request out) (step decode)
      (init name start) requests := by
  have preserve (s : PlgWithSlave) (request : Request) (t : PlgWithSlave)
      (out : Option (Int × List UpSong))
      (kept : CacheHolds listing s.bcache (s.browseKey objid))
      (guard : BrowseGuard objid s request ∧ BrowseServed decode listing objid request)
      (taken : step decode s request = some (t, out)) :
      CacheHolds listing t.bcache (t.browseKey objid) ∧ BrowseAnswered listing objid request out :=
    browse_step fits kept guard.1 guard.2 taken
  have empty : CacheHolds listing (init name start).bcache ((init name start).browseKey objid) :=
    fun cep found => by cases found
  exact Machine.along_of_invariant preserve _ requests empty
    (Machine.along_and_of_forall _ requests served guarded)

theorem browse_answers_two_pages :
    Machine.Along (fun _ request _ out => BrowseAnswered twoTracks "c" request out)
      (step twoTracksDecode) (init "qobuz" 0)
      [.browse "c" 0 1 .bfChildren twoTracksSlave, .browse "c" 1 1 .bfChildren twoTracksSlave] := by
  refine browse_answers_pages twoTracksDecode "qobuz" 0 twoTracks (by decide) "c" _ ?_
    (by decide)
  intro request member
  rcases List.mem_pair.mp member with rfl | rfl
  · exact browseServed_first
  · exact browseServed_second

/-- After a page of one entry, a request for everything gets that page. -/
theorem browse_partial_hit :
    ¬ ∀ (decode : String → Option Json) (name : String) (start : Int) (listing : List UpSong),
      (listing.length : Int) < 2 ^ 31 → ∀ (objid : String) (requests : List Request),
        (∀ request ∈ requests, BrowseServed decode listing objid request) →
          Machine.Along (fun _ request _ out => BrowseAnswered listing objid request out)
            (step decode) (init name start) requests := by
  intro transparent
  have pages := transparent twoTracksDecode "qobuz" 0 twoTracks (by decide) "c"
    [.browse "c" 0 1 .bfChildren twoTracksSlave, .browse "c" 0 0 .bfChildren twoTracksSlave] (by
      intro request member
      rcases List.mem_pair.mp member with rfl | rfl
      · exact browseServed_first
      · exact browseServed_rest)
  exact absurd pages (by decide)

/-- The same for a search, as long as what the cache holds reaches to the end of the page
asked for. -/
theorem search_answers_pages (decode : String → Option Json) (name : String) (start : Int)
    (listing : List UpSong) (fits : (listing.length : Int) < 2 ^ 31) (ctid searchstr : String)
    (requests : List Request)
    (served : ∀ request ∈ requests, SearchServed decode listing ctid searchstr request)
    (guarded : Machine.Along (fun s request _ _ => SearchGuard ctid searchstr s request)
      (step decode) (init name start) requests) :
    Machine.Along (fun _ request _ out => SearchAnswered listing request out) (step decode)
      (init name start) requests := by
  have preserve (s : PlgWithSlave) (request : Request) (t : PlgWithSlave)
      (out : Option (Int × List UpSong))
      (kept : CacheHolds listing s.scache (s.searchKey ctid searchstr))
      (guard : SearchGuard ctid searchstr s request ∧
        SearchServed decode listing ctid searchstr request)
      (taken : step decode s request = some (t, out)) :
      CacheHolds listing t.scache (t.searchKey ctid searchstr) ∧
        SearchAnswered listing request out :=
    search_step fits kept guard.1 guard.2 taken
  have empty : CacheHolds listing (init name start).scache
      ((init name start).searchKey ctid searchstr) := fun cep found => by cases found
  exact Machine.along_of_invariant preserve _ requests empty
    (Machine.along_and_of_forall _ requests served guarded)

theorem search_answers_one_page :
    Machine.Along (fun _ request _ out => SearchAnswered twoTracks request out)
      (step twoTracksDecode) (init "qobuz" 0)
      [.search "c" 1 1 twoTracksSearch twoTracksSlave,
        .search "c" 1 1 twoTracksSearch twoTracksSlave] := by
  refine search_answers_pages twoTracksDecode "qobuz" 0 twoTracks (by decide) "c" twoTracksSearch _
    ?_ (by decide)
  intro request member
  rcases List.mem_pair.mp member with rfl | rfl <;> exact searchServed_second

/-- After the second page, the cached entry is used for the first one: nothing is returned,
and -1 for the size. -/
theorem search_page_not_cached :
    ¬ ∀ (decode : String → Option Json) (name : String) (start : Int) (listing : List UpSong),
      (listing.length : Int) < 2 ^ 31 → ∀ (ctid searchstr : String) (requests : List Request),
        (∀ request ∈ requests, SearchServed decode listing ctid searchstr request) →
          Machine.Along (fun _ request _ out => SearchAnswered listing request out)
            (step decode) (init name start) requests := by
  intro transparent
  have pages := transparent twoTracksDecode "qobuz" 0 twoTracks (by decide) "c" twoTracksSearch
    [.search "c" 1 1 twoTracksSearch twoTracksSlave,
      .search "c" 0 1 twoTracksSearch twoTracksSlave] (by
      intro request member
      rcases List.mem_pair.mp member with rfl | rfl
      · exact searchServed_second
      · exact searchServed_first)
  exact absurd pages (by decide)

end Runs

end PlgWithSlave

end Upmpdcli
