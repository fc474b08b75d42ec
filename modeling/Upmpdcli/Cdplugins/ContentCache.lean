import Upmpdcli.Lib.Page
import Upmpdcli.UpSong

set_option autoImplicit false

namespace Upmpdcli

structure ContentCacheEntry where
  m_time : Int
  m_offset : Int := 0
  m_total : Int := -1
  m_results : List UpSong := []

namespace ContentCacheEntry

/-- The loop of `toResult`, on the results from the first one wanted. -/
def pushResults (cnt : Int) : List UpSong → List UpSong → List UpSong
  | entries, [] => entries
  | entries, result :: rest =>
      let entries := entries ++ [result]
      if 0 < cnt ∧ cnt ≤ wrap32 entries.length then entries else pushResults cnt entries rest

/-- The value returned on a success, which is the size of the whole list. -/
def total (e : ContentCacheEntry) : Int :=
  if e.m_total = -1 then wrap32 e.m_results.length else e.m_total

def toResult (e : ContentCacheEntry) (stidx cnt : Int) (entries : List UpSong) :
    Int × List UpSong :=
  if stidx < e.m_offset then (-1, entries)
  else (e.total, pushResults cnt entries (e.m_results.drop (stidx - e.m_offset).toNat))

theorem pushResults_of_nonpos {cnt : Int} (nonpos : cnt ≤ 0) (entries rest : List UpSong) :
    pushResults cnt entries rest = entries ++ rest := by
  induction rest generalizing entries with
  | nil => simp only [pushResults, List.append_nil]
  | cons result rest ih =>
      simp only [pushResults, show ¬0 < cnt by omega, false_and, ↓reduceIte, ih,
        List.append_assoc, List.cons_append, List.nil_append]

theorem pushResults_of_pos {cnt : Int} (entries rest : List UpSong)
    (room : (entries.length : Int) < cnt) (fits : (entries.length + rest.length : Int) < 2 ^ 31) :
    pushResults cnt entries rest = entries ++ rest.take (cnt - entries.length).toNat := by
  induction rest generalizing entries with
  | nil => simp only [pushResults, List.take_nil, List.append_nil]
  | cons result rest ih =>
      simp only [List.length_cons] at fits
      have size : (entries ++ [result]).length = entries.length + 1 := by simp
      have small : wrap32 ((entries ++ [result]).length : Int) = entries.length + 1 := by
        rw [wrap32_of_fits (by omega) (by rw [size]; omega), size]
        rfl
      have count : (cnt - entries.length).toNat = (cnt - (entries.length + 1)).toNat + 1 := by
        omega
      rw [pushResults, small, count, List.take_succ_cons]
      split
      · rename_i full
        rw [show (cnt - (entries.length + 1)).toNat = 0 by omega, List.take_zero]
      · rename_i more
        have later := ih (entries ++ [result]) (by rw [size]; push_cast; omega)
          (by rw [size]; push_cast; omega)
        rw [later, size]
        simp

/-- On a fresh result vector `toResult` makes a page of what the entry holds. -/
theorem toResult_eq_page (e : ContentCacheEntry) {stidx cnt : Int} (later : e.m_offset ≤ stidx)
    (fits : (e.m_results.length : Int) < 2 ^ 31) :
    e.toResult stidx cnt [] =
      (e.total, Paging.page e.m_results (stidx - e.m_offset).toNat cnt.toNat) := by
  rw [toResult, if_neg (by omega)]
  congr 1
  by_cases positive : 0 < cnt
  · have size := List.length_drop (i := (stidx - e.m_offset).toNat) (l := e.m_results)
    rw [pushResults_of_pos [] _ (by simpa using positive) (by simp only [List.length_nil]; omega)]
    simp [Paging.page, show ¬cnt ≤ 0 by omega]
  · rw [pushResults_of_nonpos (by omega)]
    simp [Paging.page, show cnt ≤ 0 by omega]

end ContentCacheEntry

/-- `ContentCache`, as a map from the keys to the entries. -/
structure ContentCache where
  m_lastpurge : Int
  m_retention_secs : Int := 300
  m_cache : String → Option ContentCacheEntry := fun _ => none

namespace ContentCache

def purge (cache : ContentCache) (now : Int) : ContentCache :=
  if now - cache.m_lastpurge < 5 then cache
  else
    { cache with
      m_cache := fun key =>
        (cache.m_cache key).filter fun entry => ¬now - entry.m_time > cache.m_retention_secs
      m_lastpurge := now }

/-- A copy of the entry, and the purged cache. -/
def get (cache : ContentCache) (now : Int) (key : String) :
    Option ContentCacheEntry × ContentCache :=
  let cache := cache.purge now
  (cache.m_cache key, cache)

def set (cache : ContentCache) (key : String) (entry : ContentCacheEntry) : ContentCache :=
  { cache with m_cache := fun other => if other = key then some entry else cache.m_cache other }

/-- A purge only removes entries. -/
theorem purge_eq_some {cache : ContentCache} {now : Int} {key : String} {e : ContentCacheEntry}
    (found : (cache.purge now).m_cache key = some e) : cache.m_cache key = some e := by
  unfold purge at found
  split at found
  · exact found
  · exact (Option.filter_eq_some_iff.mp found).1

end ContentCache

/-- What a cache entry says about the list it was made from: the whole of it, or a slice
with its place and the size of the list. -/
structure ContentCacheEntry.Holds (listing : List UpSong) (e : ContentCacheEntry) : Prop where
  nonneg : 0 ≤ e.m_offset
  slice : e.m_results <+: listing.drop e.m_offset.toNat
  total : e.m_total = listing.length ∨
    (e.m_total = -1 ∧ e.m_offset = 0 ∧ e.m_results = listing)

namespace ContentCacheEntry

variable {listing : List UpSong} {e : ContentCacheEntry}

theorem Holds.length_le (holds : Holds listing e) : e.m_results.length ≤ listing.length := by
  have size := holds.slice.length_le
  rw [List.length_drop] at size
  omega

theorem Holds.total_eq (holds : Holds listing e) (fits : (listing.length : Int) < 2 ^ 31) :
    e.total = listing.length := by
  unfold ContentCacheEntry.total
  rcases holds.total with total | ⟨none, -, whole⟩
  · rw [total, if_neg (by omega)]
  · rw [if_pos none, whole, wrap32_of_fits (by omega) fits]

/-- The condition under which an entry can answer for the page `[stidx, stidx+cnt)`. -/
def Reaches (e : ContentCacheEntry) (stidx cnt : Int) : Prop :=
  e.m_offset ≤ stidx ∧
    (e.total ≤ e.m_offset + e.m_results.length ∨ e.total ≤ stidx ∨
      (0 < cnt ∧ stidx + cnt ≤ e.m_offset + e.m_results.length))

instance (e : ContentCacheEntry) (stidx cnt : Int) : Decidable (e.Reaches stidx cnt) :=
  inferInstanceAs (Decidable (_ ∧ _))

theorem Holds.toResult_of_reaches (holds : Holds listing e)
    (fits : (listing.length : Int) < 2 ^ 31) {stidx cnt : Int} (reaches : e.Reaches stidx cnt) :
    e.toResult stidx cnt [] =
      ((listing.length : Int), Paging.page listing stidx.toNat cnt.toNat) := by
  obtain ⟨later, reaches⟩ := reaches
  have nonneg := holds.nonneg
  have size := holds.length_le
  have covers : Paging.Covers listing e.m_results e.m_offset.toNat stidx.toNat cnt.toNat := by
    rw [holds.total_eq fits] at reaches
    refine ⟨by omega, ?_⟩
    rcases reaches with whole | past | ⟨positive, enough⟩
    · exact .inl (by omega)
    · exact .inr (.inl (by omega))
    · exact .inr (.inr ⟨by omega, by omega⟩)
  rw [e.toResult_eq_page later (by omega), holds.total_eq fits,
    ← Paging.page_of_covers holds.slice covers]
  congr 2
  omega

end ContentCacheEntry

end Upmpdcli
