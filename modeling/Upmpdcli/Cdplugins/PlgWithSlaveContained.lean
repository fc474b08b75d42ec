import Upmpdcli.Lib.Machine
import Upmpdcli.Cdplugins.PlgWithSlave

set_option autoImplicit false

/- What is left of a reply of the slave which cannot be read. -/
namespace Upmpdcli

namespace Json

/-- The values which have a text. -/
def scalar : Json → Bool
  | array _ => false
  | object _ => false
  | _ => true

/-- This member can be asked for, and is absent or has a text. -/
def hasText (value : Json) (key : String) : Bool :=
  match value with
  | null => true
  | object members => (members.lookup key).all scalar
  | _ => false

theorem isSome_getString (value : Json) (key : String) :
    (value.getString key).isSome = value.hasText key := by
  cases value with
  | object members =>
      unfold getString hasText
      dsimp only
      cases found : members.lookup key with
      | none => rfl
      | some member => cases member <;> rfl
  | _ => rfl

end Json

/-- The members which are read of every entry, of a container, and of an item. -/
def commonKeys : List String :=
  ["id", "pid", "tt", "upnp:albumArtURI", "upnp:artist", "upnp:class", "dc:description",
    "dc:date", "releasedate", "didlfrag"]

def containerKeys : List String := ["searchable"]

def itemKeys : List String :=
  ["dc:creator", "upnp:genre", "upnp:album", "upnp:originalTrackNumber"]

/-- Those of a resource, which are also read of an item. -/
def resourceKeys : List String :=
  ["uri", "res:mime", "duration", "res:size", "res:bitrate", "res:samplefreq",
    "res:bitsPerSample", "res:channels"]

def Json.HasTexts (value : Json) (keys : List String) : Prop :=
  ∀ key ∈ keys, value.hasText key = true

/-- An entry with fields of the types which are read. -/
structure EntryTyped (entry : Json) : Prop where
  common : entry.HasTexts commonKeys
  kind : entry.hasText "tp" = true
  container : entry.getString "tp" = some "ct" → entry.HasTexts containerKeys
  item : entry.getString "tp" = some "it" → entry.HasTexts itemKeys ∧ entry.HasTexts resourceKeys
  resources : entry.getString "tp" = some "it" → ∀ values,
    entry.member "resources" = some (.array values) → ∀ value ∈ values, value.HasTexts resourceKeys

/-- A reply with entries of this kind: an array of them, or a value which has no elements. -/
def ReplyTyped : Json → Prop
  | .array values => ∀ entry ∈ values, EntryTyped entry
  | .object members => members = []
  | _ => True

theorem any_const {α : Type} (o : Option α) (b : Bool) :
    o.any (fun _ => b) = (o.isSome && b) := by
  cases o <;> rfl

theorem isSome_decodeNumber (entry : Json) (key : String) (convert : String → Int) (field : Int) :
    (decodeNumber entry key convert field).isSome = entry.hasText key := by
  rw [decodeNumber, Option.isSome_map, Json.isSome_getString]

theorem isSome_jsonToUps (entry : Json) (nm field : String) :
    (jsonToUps entry nm field).isSome = entry.hasText nm := by
  rw [jsonToUps, Option.isSome_map, Json.isSome_getString]

theorem isSome_decodeResource (entry : Json) (res : Res) :
    (decodeResource entry res).isSome = true ↔ entry.HasTexts resourceKeys := by
  simp only [decodeResource, bind, Option.isSome_bind, Option.isSome_some, any_const,
    isSome_decodeNumber, Json.isSome_getString, Bool.and_true, Bool.and_eq_true, Json.HasTexts,
    resourceKeys, List.forall_mem_cons, List.not_mem_nil, false_implies, implies_true, and_true]

theorem isSome_decodeCommon (entry : Json) :
    (decodeCommon entry).isSome = true ↔ entry.HasTexts commonKeys := by
  simp only [decodeCommon, bind, Option.isSome_bind, Option.isSome_some, any_const,
    isSome_jsonToUps, Json.isSome_getString, Bool.and_true, Bool.and_eq_true, Json.HasTexts,
    commonKeys, List.forall_mem_cons, List.not_mem_nil, false_implies, implies_true, and_true]

theorem isSome_decodeContainer (entry : Json) (song : UpSong) :
    (decodeContainer entry song).isSome = true ↔ entry.HasTexts containerKeys := by
  simp only [decodeContainer, bind, Option.isSome_bind, Option.isSome_some, any_const,
    Json.isSome_getString, Bool.and_true, Json.HasTexts, containerKeys, List.forall_mem_cons,
    List.not_mem_nil, false_implies, implies_true, and_true]

theorem isSome_mapM_iff {α β : Type} (f : α → Option β) (values : List α) :
    (values.mapM f).isSome = true ↔ ∀ value ∈ values, (f value).isSome = true := by
  induction values with
  | nil => simp
  | cons value rest ih =>
      simp only [List.mapM_cons, bind, Option.isSome_bind, pure, Option.isSome_some, any_const,
        Bool.and_true, Bool.and_eq_true, ih, List.forall_mem_cons]

/-- A member of any type can be asked for where one with a text can. -/
theorem isSome_member {entry : Json} {key : String} (text : entry.hasText key = true)
    (other : String) : (entry.member other).isSome = true := by
  cases entry with
  | null => rfl
  | object members => rfl
  | _ => cases text

theorem isSome_decodeItem (entry : Json) (song : UpSong) :
    (decodeItem entry song).isSome = true ↔
      (entry.HasTexts itemKeys ∧ entry.HasTexts resourceKeys) ∧
        ∀ values, entry.member "resources" = some (.array values) →
          ∀ value ∈ values, value.HasTexts resourceKeys := by
  have keys : entry.HasTexts itemKeys ∧ entry.HasTexts resourceKeys ↔
      entry.hasText "dc:creator" = true ∧ entry.hasText "upnp:genre" = true ∧
        entry.hasText "upnp:album" = true ∧ entry.hasText "upnp:originalTrackNumber" = true ∧
        (decodeResource entry song.rsrc).isSome = true := by
    rw [isSome_decodeResource]
    simp only [Json.HasTexts, itemKeys, List.forall_mem_cons, List.not_mem_nil, false_implies,
      implies_true, and_true, and_assoc]
  rw [keys]
  cases found : entry.member "resources" with
  | none =>
      refine iff_of_false ?_ fun both => ?_
      · simp only [decodeItem, bind, Option.isSome_bind, found, Option.any_none, any_const,
          Bool.and_false, Bool.false_eq_true, not_false_eq_true]
      · have object := isSome_member both.1.1 "resources"
        rw [found] at object
        cases object
  | some found' =>
      cases found' with
      | array values =>
          simp only [decodeItem, bind, Option.isSome_bind, found, Option.any_some, any_const,
            Option.isSome_some, isSome_jsonToUps, Bool.and_true, Bool.and_eq_true,
            isSome_mapM_iff, isSome_decodeResource, Option.some.injEq, Json.array.injEq,
            forall_eq', and_assoc]
      | _ =>
          simp only [decodeItem, bind, Option.isSome_bind, found, any_const,
            Option.isSome_some, isSome_jsonToUps, Bool.and_true, Bool.and_eq_true,
            Option.bind_some, Option.some.injEq, reduceCtorEq, false_implies, implies_true,
            and_true]

/-- One turn of the loop ends normally when the entry has fields of the right types. -/
theorem isSome_decodeEntry (classfilter : String) (entry : Json) :
    (decodeEntry classfilter entry).isSome = true ↔ EntryTyped entry := by
  have typed : EntryTyped entry ↔ entry.HasTexts commonKeys ∧ entry.hasText "tp" = true ∧
      (entry.getString "tp" = some "ct" → entry.HasTexts containerKeys) ∧
      (entry.getString "tp" = some "it" →
        (entry.HasTexts itemKeys ∧ entry.HasTexts resourceKeys) ∧
          ∀ values, entry.member "resources" = some (.array values) →
            ∀ value ∈ values, value.HasTexts resourceKeys) := by
    constructor
    · rintro ⟨common, kind, container, item, resources⟩
      exact ⟨common, kind, container, fun it => ⟨item it, resources it⟩⟩
    · rintro ⟨common, kind, container, item⟩
      exact ⟨common, kind, container, fun it => (item it).1, fun it => (item it).2⟩
  rw [typed, ← isSome_decodeCommon, ← Json.isSome_getString]
  unfold decodeEntry
  cases decodeCommon entry with
  | none => simp [bind]
  | some song =>
      cases entry.getString "tp" with
      | none => simp [bind]
      | some stp =>
          simp only [bind, Option.bind_some, Option.isSome_some, true_and, Option.some.injEq]
          by_cases container : stp = "ct"
          · rw [if_pos container, Option.isSome_bind, ← isSome_decodeContainer entry song]
            simp [container]
          · by_cases item : stp = "it"
            · rw [if_neg container, if_pos item, Option.isSome_bind,
                ← isSome_decodeItem entry song]
              simp [item]
            · rw [if_neg container, if_neg item]
              simp [container, item]

theorem decodeEntries_ends (classfilter : String) (values : List Json) :
    (decodeEntries classfilter values).2 = true ↔ ∀ entry ∈ values, EntryTyped entry := by
  induction values with
  | nil => simp [decodeEntries]
  | cons entry rest ih =>
      rw [List.forall_mem_cons, ← ih, ← isSome_decodeEntry classfilter entry, decodeEntries]
      cases decodeEntry classfilter entry with
      | none => simp
      | some pushed => simp

/-- The reading of a reply ends normally when the reply has the right types. -/
theorem resultToEntries_ends (classfilter : String) (decoded : Json) :
    (resultToEntries decoded classfilter).2.isSome = true ↔ ReplyTyped decoded := by
  cases decoded with
  | array values =>
      unfold resultToEntries ReplyTyped
      dsimp only
      rw [← decodeEntries_ends classfilter values]
      cases (decodeEntries classfilter values).2 <;> simp
  | object members => cases members <;> simp [resultToEntries, ReplyTyped]
  | _ => simp [resultToEntries, ReplyTyped]

namespace PlgWithSlave

variable (decode : String → Option Json)

namespace Request

def objid : Request → String
  | .browse objid _ _ _ _ => objid
  | .search ctid _ _ _ _ => ctid

def stidx : Request → Int
  | .browse _ stidx _ _ _ => stidx
  | .search _ stidx _ _ _ => stidx

def classfilter : Request → String
  | .browse _ _ _ _ _ => ""
  | .search _ _ _ searchstr _ => ((eli5 searchstr).map Eli5.classfilter).getD ""

/-- What the caches have for the request. -/
def entry (s : PlgWithSlave) : Request → Option ContentCacheEntry
  | .browse objid _ _ _ _ => s.bcache.m_cache (s.browseKey objid)
  | .search ctid _ _ searchstr _ => s.scache.m_cache (s.searchKey ctid searchstr)

/-- What the slave returns for the request, if it is asked and returns anything. -/
def reply (s : PlgWithSlave) : Request → Option SlaveResult
  | .browse objid stidx cnt flg env =>
      let call (cnt : Int) := env.callproc "browse" (browseArgs objid flg.sbflg stidx cnt)
      if env.running then
        match flg with
        | .bfMeta => call cnt
        | .bfChildren =>
            match (s.bcache.get env.now (s.browseKey objid)).1 with
            | none => call cnt
            | some cep =>
                let cnt := adjustCnt cep stidx cnt
                if cep.m_offset ≤ stidx ∧
                    wrap32 cep.m_results.length - (stidx - cep.m_offset) ≥ cnt then none
                else call cnt
      else none
  | .search ctid stidx cnt searchstr env =>
      if env.running then
        match eli5 searchstr with
        | none => none
        | some slots =>
            match (s.scache.get env.now (s.searchKey ctid searchstr)).1 with
            | some _ => none
            | none => env.callproc "search" (searchArgs ctid searchstr slots stidx cnt)
      else none

end Request

/-- The entries of the reply to a request, read to its end. -/
structure Read (s : PlgWithSlave) (request : Request) (res : SlaveResult) (results : List UpSong)
    (size : Nat) : Prop where
  replied : request.reply s = some res
  whole : ∃ encoded decoded, res "entries" = some encoded ∧ decode encoded = some decoded ∧
    resultToEntries decoded request.classfilter = (results, some size)

/-- What a request may return: the error entry, what the cache has, or what was read. -/
inductive Given (s : PlgWithSlave) (request : Request) : Int × List UpSong → Prop
  | error : Given s request (errorEntries request.objid)
  | cached (e : ContentCacheEntry) (count : Int) (found : request.entry s = some e) :
      Given s request (e.toResult request.stidx count [])
  | page (res : SlaveResult) (results : List UpSong) (size : Nat) (time count : Int)
      (read : Read decode s request res results size) :
      Given s request
        ((ContentCacheEntry.mk time res.offset res.total results).toResult request.stidx count [])
  | whole (res : SlaveResult) (results : List UpSong) (size : Nat)
      (read : Read decode s request res results size) : Given s request (Int.ofNat size, results)

/-- An entry with all of what was read. -/
def Whole (s : PlgWithSlave) (request : Request) (e : ContentCacheEntry) : Prop :=
  ∃ res size, Read decode s request res e.m_results size ∧ e.m_offset = res.offset ∧
    e.m_total = res.total

/-- What is wanted of a request, which ends with `out` in the state `t`: no exception, a
proper answer, and nothing new in the caches but what was read to its end. -/
structure Contained (s : PlgWithSlave) (request : Request) (t : PlgWithSlave)
    (out : Option (Int × List UpSong)) : Prop where
  ends : out ≠ none
  given : ∀ answer, out = some answer → Given decode s request answer
  bcache : ∀ key e, t.bcache.m_cache key = some e →
    s.bcache.m_cache key = some e ∨ Whole decode s request e
  scache : ∀ key e, t.scache.m_cache key = some e →
    s.scache.m_cache key = some e ∨ Whole decode s request e

/-- The condition on the reply: it has no entries, or they are JSON of the right types. -/
def Sound (s : PlgWithSlave) (request : Request) : Prop :=
  ∀ res encoded, request.reply s = some res → res "entries" = some encoded →
    ∃ decoded, decode encoded = some decoded ∧ ReplyTyped decoded

/-- The caches have only lost entries. -/
structure Leaves (s t : PlgWithSlave) : Prop where
  bcache : ∀ key e, t.bcache.m_cache key = some e → s.bcache.m_cache key = some e
  scache : ∀ key e, t.scache.m_cache key = some e → s.scache.m_cache key = some e

theorem Leaves.refl (s : PlgWithSlave) : Leaves s s := ⟨fun _ _ => id, fun _ _ => id⟩

theorem leaves_purge_bcache (s : PlgWithSlave) (now : Int) :
    Leaves s { s with bcache := s.bcache.purge now } :=
  ⟨fun _ _ => ContentCache.purge_eq_some, fun _ _ => id⟩

theorem leaves_purge_scache (s : PlgWithSlave) (now : Int) :
    Leaves s { s with scache := s.scache.purge now } :=
  ⟨fun _ _ => id, fun _ _ => ContentCache.purge_eq_some⟩

variable {decode} {s t : PlgWithSlave} {request : Request}

theorem contained_of_leaves {answer : Int × List UpSong} (leaves : Leaves s t)
    (given : Given decode s request answer) : Contained decode s request t (some answer) := by
  constructor
  · simp
  · intro other same
    cases same
    exact given
  · exact fun key e found => .inl (leaves.bcache key e found)
  · exact fun key e found => .inl (leaves.scache key e found)

theorem decodeResult_eq_some {encoded classfilter : String} {results : List UpSong} {size : Nat}
    (read : decodeResult decode encoded classfilter = (results, some size)) :
    ∃ decoded, decode encoded = some decoded ∧ ReplyTyped decoded ∧
      resultToEntries decoded classfilter = (results, some size) := by
  unfold decodeResult at read
  cases json : decode encoded with
  | none =>
      rw [json] at read
      cases read
  | some decoded =>
      rw [json] at read
      dsimp only at read
      refine ⟨decoded, rfl, (resultToEntries_ends classfilter decoded).mp ?_, read⟩
      rw [read]
      rfl

theorem decodeResult_eq_none {encoded classfilter : String}
    (failed : (decodeResult decode encoded classfilter).2 = none) {decoded : Json}
    (json : decode encoded = some decoded) : ¬ ReplyTyped decoded := by
  intro typed
  unfold decodeResult at failed
  rw [json] at failed
  have ended := (resultToEntries_ends classfilter decoded).mpr typed
  rw [failed] at ended
  cases ended

/-- A request whose reply is read: an exception, or what was read. -/
theorem contained_iff_of_reply {res : SlaveResult} {encoded : String}
    {out : Option (Int × List UpSong)} (reply : request.reply s = some res)
    (entries : res "entries" = some encoded)
    (failed : (decodeResult decode encoded request.classfilter).2 = none → out = none)
    (done : ∀ results size, Read decode s request res results size →
      decodeResult decode encoded request.classfilter = (results, some size) →
        Contained decode s request t out) :
    Contained decode s request t out ↔ Sound decode s request := by
  cases read : decodeResult decode encoded request.classfilter with
  | mk results ended =>
      cases ended with
      | none =>
          rw [read] at failed
          refine iff_of_false (fun contained => contained.ends (failed rfl)) fun sound => ?_
          obtain ⟨decoded, json, typed⟩ := sound res encoded reply entries
          exact decodeResult_eq_none (by rw [read]) json typed
      | some size =>
          obtain ⟨decoded, json, typed, whole⟩ := decodeResult_eq_some read
          refine iff_of_true ?_ fun res' encoded' reply' entries' => ?_
          · exact done results size ⟨reply, encoded, decoded, entries, json, whole⟩ read
          · cases reply.symm.trans reply'
            cases entries.symm.trans entries'
            exact ⟨decoded, json, typed⟩

/-- A request which does not get entries from the slave. -/
theorem contained_iff_of_no_entries {answer : Int × List UpSong}
    (none : ∀ res, request.reply s = some res → res "entries" = none) (leaves : Leaves s t)
    (given : Given decode s request answer) :
    Contained decode s request t (some answer) ↔ Sound decode s request := by
  refine iff_of_true (contained_of_leaves leaves given) fun res encoded reply entries => ?_
  rw [none res reply] at entries
  cases entries

theorem storeResult_eq {cache : ContentCache} {key : String} {env : SlaveEnv} {res : SlaveResult}
    {encoded classfilter : String} {stidx cnt : Int} {results : List UpSong} {ended : Option Nat}
    (read : decodeResult decode encoded classfilter = (results, ended)) :
    storeResult decode cache key env res encoded classfilter stidx cnt =
      (if res.nocache then cache
        else cache.set key ⟨env.done, res.offset, res.total, results⟩,
        ended.map fun _ =>
          (ContentCacheEntry.mk env.done res.offset res.total results).toResult stidx cnt []) := by
  unfold storeResult
  rw [read]

theorem storeResult_of_failed (cache : ContentCache) (key : String) {env : SlaveEnv}
    {res : SlaveResult} {encoded classfilter : String} {stidx cnt : Int}
    (failed : (decodeResult decode encoded classfilter).2 = none) :
    (storeResult decode cache key env res encoded classfilter stidx cnt).2 = none := by
  unfold storeResult
  dsimp only
  rw [failed]
  rfl

theorem eq_or_stored {cache : ContentCache} {nocache : Bool} {key other : String}
    {e found : ContentCacheEntry}
    (there : (if nocache then cache else cache.set key e).m_cache other = some found) :
    cache.m_cache other = some found ∨ found = e := by
  cases nocache with
  | true => exact .inl there
  | false =>
      simp only [Bool.false_eq_true, if_false, ContentCache.set] at there
      by_cases same : other = key
      · rw [if_pos same] at there
        exact .inr (Option.some.inj there).symm
      · rw [if_neg same] at there
        exact .inl there

section Browse

variable {objid : String} {stidx cnt count : Int} {flg : BrowseFlag} {env : SlaveEnv}
  {s' : PlgWithSlave}

theorem browseSlave_contained (leaves : Leaves s s')
    (reply : (Request.browse objid stidx cnt flg env).reply s =
      env.callproc "browse" (browseArgs objid flg.sbflg stidx count)) :
    Contained decode s (.browse objid stidx cnt flg env)
        (browseSlave decode s' objid stidx count flg env).1
        (browseSlave decode s' objid stidx count flg env).2 ↔
      Sound decode s (.browse objid stidx cnt flg env) := by
  unfold browseSlave
  cases called : env.callproc "browse" (browseArgs objid flg.sbflg stidx count) with
  | none =>
      apply contained_iff_of_no_entries _ leaves .error
      intro res replied
      rw [reply, called] at replied
      cases replied
  | some res =>
      rw [called] at reply
      dsimp only
      cases entries : res "entries" with
      | none =>
          apply contained_iff_of_no_entries _ leaves .error
          intro other replied
          rw [reply] at replied
          cases replied
          exact entries
      | some encoded =>
          cases flg with
          | bfMeta =>
              dsimp only
              apply contained_iff_of_reply reply entries
              · intro failed
                rw [show (decodeResult decode encoded "").2 = none from failed]
                rfl
              · intro results size read whole
                rw [show decodeResult decode encoded "" = (results, some size) from whole]
                exact contained_of_leaves leaves (.whole res results size read)
          | bfChildren =>
              apply contained_iff_of_reply reply entries
              · exact fun failed => storeResult_of_failed s'.bcache (s'.browseKey objid) failed
              · intro results size read whole
                have whole : decodeResult decode encoded "" = (results, some size) := whole
                dsimp only
                rw [storeResult_eq whole]
                constructor
                · simp
                · intro answer same
                  cases same
                  exact .page res results size env.done count read
                · intro key e found
                  rcases eq_or_stored found with old | rfl
                  · exact .inl (leaves.bcache key e old)
                  · exact .inr ⟨res, size, read, rfl, rfl⟩
                · exact fun key e found => .inl (leaves.scache key e found)

theorem browse_contained :
    Contained decode s (.browse objid stidx cnt flg env)
        (browse decode s objid stidx cnt flg env).1
        (browse decode s objid stidx cnt flg env).2 ↔
      Sound decode s (.browse objid stidx cnt flg env) := by
  unfold browse
  by_cases running : env.running = true
  · rw [if_pos running]
    cases flg with
    | bfMeta =>
        apply browseSlave_contained (Leaves.refl s)
        unfold Request.reply
        dsimp only
        rw [if_pos running]
    | bfChildren =>
        have leaves := leaves_purge_bcache s env.now
        unfold ContentCache.get
        dsimp only
        cases found : (s.bcache.purge env.now).m_cache (s.browseKey objid) with
        | none =>
            apply browseSlave_contained leaves
            unfold Request.reply ContentCache.get
            dsimp only
            rw [if_pos running, found]
        | some cep =>
            dsimp only
            by_cases hit : cep.m_offset ≤ stidx ∧
                wrap32 cep.m_results.length - (stidx - cep.m_offset) ≥ adjustCnt cep stidx cnt
            · rw [if_pos hit]
              have silent :
                  (Request.browse objid stidx cnt .bfChildren env).reply s = none := by
                unfold Request.reply ContentCache.get
                dsimp only
                rw [if_pos running, found]
                dsimp only
                rw [if_pos hit]
              apply contained_iff_of_no_entries _ leaves
              · exact .cached cep _ (ContentCache.purge_eq_some found)
              · intro res replied
                rw [silent] at replied
                cases replied
            · rw [if_neg hit]
              apply browseSlave_contained leaves
              unfold Request.reply ContentCache.get
              dsimp only
              rw [if_pos running, found]
              dsimp only
              rw [if_neg hit]
  · rw [if_neg running]
    apply contained_iff_of_no_entries _ (Leaves.refl s) .error
    intro res replied
    unfold Request.reply at replied
    dsimp only at replied
    rw [if_neg running] at replied
    cases replied

end Browse

section Search

variable {ctid searchstr : String} {stidx cnt : Int} {env : SlaveEnv}

theorem search_contained :
    Contained decode s (.search ctid stidx cnt searchstr env)
        (search decode s ctid stidx cnt searchstr env).1
        (search decode s ctid stidx cnt searchstr env).2 ↔
      Sound decode s (.search ctid stidx cnt searchstr env) := by
  unfold search
  by_cases running : env.running = true
  · rw [if_pos running]
    cases parsed : eli5 searchstr with
    | none =>
        apply contained_iff_of_no_entries _ (Leaves.refl s) .error
        intro res replied
        unfold Request.reply at replied
        dsimp only at replied
        rw [if_pos running, parsed] at replied
        cases replied
    | some slots =>
        have leaves := leaves_purge_scache s env.now
        unfold ContentCache.get
        dsimp only
        cases found : (s.scache.purge env.now).m_cache (s.searchKey ctid searchstr) with
        | some cep =>
            apply contained_iff_of_no_entries _ leaves
            · exact .cached cep _ (ContentCache.purge_eq_some found)
            · intro res replied
              unfold Request.reply ContentCache.get at replied
              dsimp only at replied
              rw [if_pos running, parsed] at replied
              dsimp only at replied
              rw [found] at replied
              cases replied
        | none =>
            have reply : (Request.search ctid stidx cnt searchstr env).reply s =
                env.callproc "search" (searchArgs ctid searchstr slots stidx cnt) := by
              unfold Request.reply ContentCache.get
              dsimp only
              rw [if_pos running, parsed]
              dsimp only
              rw [found]
            have filter : (Request.search ctid stidx cnt searchstr env).classfilter =
                slots.classfilter := by
              unfold Request.classfilter
              dsimp only
              rw [parsed]
              rfl
            dsimp only
            cases called : env.callproc "search" (searchArgs ctid searchstr slots stidx cnt) with
            | none =>
                apply contained_iff_of_no_entries _ leaves .error
                intro res replied
                rw [reply, called] at replied
                cases replied
            | some res =>
                rw [called] at reply
                dsimp only
                cases entries : res "entries" with
                | none =>
                    apply contained_iff_of_no_entries _ leaves .error
                    intro other replied
                    rw [reply] at replied
                    cases replied
                    exact entries
                | some encoded =>
                    apply contained_iff_of_reply reply entries
                    · intro failed
                      rw [filter] at failed
                      exact storeResult_of_failed (s.scache.purge env.now) (s.searchKey ctid searchstr) failed
                    · intro results size read whole
                      rw [filter] at whole
                      dsimp only
                      rw [storeResult_eq whole]
                      constructor
                      · simp
                      · intro answer same
                        cases same
                        exact .page res results size env.done cnt read
                      · exact fun key e found => .inl (leaves.bcache key e found)
                      · intro key e found
                        rcases eq_or_stored found with old | rfl
                        · exact .inl (leaves.scache key e old)
                        · exact .inr ⟨res, size, read, rfl, rfl⟩
  · rw [if_neg running]
    apply contained_iff_of_no_entries _ (Leaves.refl s) .error
    intro res replied
    unfold Request.reply at replied
    dsimp only at replied
    rw [if_neg running] at replied
    cases replied

end Search

/-- What a request leaves behind. -/
def after (decode : String → Option Json) (s : PlgWithSlave) :
    Request → PlgWithSlave × Option (Int × List UpSong)
  | .browse objid stidx cnt flg env => browse decode s objid stidx cnt flg env
  | .search ctid stidx cnt searchstr env => search decode s ctid stidx cnt searchstr env

theorem step_eq_after (s : PlgWithSlave) (request : Request) :
    step decode s request = some (after decode s request) := by
  cases request <;> rfl

theorem contained_iff (s : PlgWithSlave) (request : Request) :
    Contained decode s request (after decode s request).1 (after decode s request).2 ↔
      Sound decode s request := by
  cases request with
  | browse objid stidx cnt flg env => exact browse_contained
  | search ctid stidx cnt searchstr env => exact search_contained

/-- Every entry of the caches is a reply which was read to its end. -/
structure Entire (decode : String → Option Json) (s : PlgWithSlave) : Prop where
  bcache : ∀ key e, s.bcache.m_cache key = some e → ∃ s' request, Whole decode s' request e
  scache : ∀ key e, s.scache.m_cache key = some e → ∃ s' request, Whole decode s' request e

theorem entire_init (name : String) (now : Int) : Entire decode (init name now) := by
  constructor
  · intro key e found
    cases found
  · intro key e found
    cases found

theorem Entire.of_contained {out : Option (Int × List UpSong)} (entire : Entire decode s)
    (contained : Contained decode s request t out) : Entire decode t := by
  constructor
  · intro key e found
    rcases contained.bcache key e found with old | whole
    · exact entire.bcache key e old
    · exact ⟨s, request, whole⟩
  · intro key e found
    rcases contained.scache key e found with old | whole
    · exact entire.scache key e old
    · exact ⟨s, request, whole⟩

/-- Bad replies are contained exactly when there are none to contain: a reply with entries
which are not JSON of the right types lets an exception out. Without such replies every
entry that later requests find in the caches was read to its end. -/
theorem replies_contained_iff (decode : String → Option Json) (name : String) (start : Int)
    (requests : List Request) :
    (∀ s request, Contained decode s request (after decode s request).1
        (after decode s request).2 ↔ Sound decode s request) ∧
      (Machine.Along (fun s request _ _ => Sound decode s request) (step decode)
          (init name start) requests →
        ∀ last outs, Machine.run (step decode) (init name start) requests = some (last, outs) →
          Entire decode last) := by
  refine ⟨contained_iff, fun sound last outs ran => ?_⟩
  refine Machine.invariant_of_run ?_ _ last requests outs (entire_init name start) sound ran
  intro s request t out entire sound taken
  rw [step_eq_after] at taken
  have contained := (contained_iff s request).mpr sound
  rw [Option.some.inj taken] at contained
  exact entire.of_contained contained

/-- A slave whose replies only have entries. -/
def replying : SlaveEnv where
  now := 0
  done := 0
  running := true
  callproc := fun _ _ => some fun name => if name = "entries" then some "" else none

/-- A request for the children of one container. -/
def children : Request := .browse "c" 0 1 .bfChildren replying

def noEntries (_ : String) : Option Json := some (.array [])

theorem entire_children : Entire noEntries (after noEntries (init "qobuz" 0) children).1 := by
  apply (replies_contained_iff noEntries "qobuz" 0 [children]).2 _ _ _ rfl
  refine ⟨fun res encoded replied entries => ⟨.array [], rfl, ?_⟩, trivial⟩
  intro entry there
  cases there

/-- A track, and then a number. -/
def badEntry (_ : String) : Option Json :=
  some (.array [.object [("id", .string "a"), ("tp", .string "it")], .int 5])

theorem replies_not_contained :
    ¬ ∀ (decode : String → Option Json) (s : PlgWithSlave) (request : Request),
      Contained decode s request (after decode s request).1 (after decode s request).2 := by
  intro always
  exact (always badEntry (init "qobuz" 0) children).ends rfl

/- The first request ends with an exception, the same one again gets what the first left. -/
example :
    (Machine.run (step badEntry) (init "qobuz" 0) [children, children]).map Prod.snd =
      some [none, some (1, [{ id := "a" }])] := by
  decide

end PlgWithSlave

end Upmpdcli
