import Upmpdcli.MpdCli

set_option autoImplicit false

/- Inserting songs, and what `insertAfterId` remembers of the last insertion. -/
namespace Upmpdcli

/-- The environment of one insertion: the command which adds the song, those which tag it,
and the status request after them. -/
structure InsertEnv where
  add : CmdEnv := {}
  tags : List Attempt := []
  status : StatusEnv := {}
deriving DecidableEq

/-- The environment of `getQueueSongs`: the edits of other clients before MPD makes its
answer, and whether it is received to its end. -/
structure ListEnv where
  edits : List MpdQueue := []
  answered : Bool := true
deriving DecidableEq

structure InsertAfterEnv where
  start : StatusEnv := {}
  list : ListEnv := {}
  insert : InsertEnv := {}
deriving DecidableEq

/-- The conversion of an `int` to `unsigned`. -/
def unsigned (i : Int) : Nat := if i < 0 then (i + 2 ^ 32).toNat else i.toNat

namespace MpdCli

def sendTag (id : Nat) (tag data : String) (e : Attempt) (mpd : Mpd) : Bool × Mpd :=
  let data := Smallut.neutchars data "\r\n" ' '
  match e.run (fun _ mpd => (mpd.addTagId id tag data).map fun mpd => ((), mpd)) mpd with
  | (some _, mpd) => (true, mpd)
  | (none, mpd) => (false, mpd)

/-- The first tag which cannot be set ends the sequence, and so does a lost connection. -/
def sendTags (id : Nat) : List (String × String) → List Attempt → Mpd → Mpd
  | (tag, data) :: rest, e :: env, mpd =>
      match sendTag id tag data e mpd with
      | (true, mpd) => sendTags id rest env mpd
      | (false, mpd) => mpd
  | _, _, mpd => mpd

def sendTagData (cli : MpdCli) (id : Nat) (song : UpSong) (env : List Attempt) (mpd : Mpd) : Mpd :=
  if cli.m_have_addtagid then
    sendTags id [("Artist", song.artist), ("Album", song.album), ("Title", song.title),
      ("Track", song.tracknum), ("Comment", "client=upmpdcli;")] env mpd
  else mpd

/-- `insert_i`. The command assigns `m_lastinsertid` whether it succeeds or not. -/
def insert (w : World) (uri : String) (pos : Int) (song : UpSong) (env : InsertEnv) :
    Int × World :=
  let cmd (newid : Nat) (mpd : Mpd) : Option (Nat × Mpd) :=
    mpd.addId uri (if pos = -1 then mpd.queue.songs.length else unsigned pos) newid
  match retryCmd env.add cmd w.mpd with
  | (.notOk, mpd) => (-1, { w with mpd := mpd })
  | (.error, mpd) => (-1, { cli := { w.cli with m_lastinsertid := -1 }, mpd := mpd })
  | (.success id, mpd) =>
      let inserted : World :=
        { cli := { w.cli with m_lastinsertid := id, m_lastinsertpos := pos }
          mpd := sendTagData w.cli id song env.tags mpd }
      let told := (updStatus inserted env.status).1
      (told.cli.m_lastinsertid,
        { told with cli := { told.cli with m_lastinsertqvers := told.cli.m_stat.qvers } })

def getQueueSongs (w : World) (env : ListEnv) : Option (List MpdSong) × World :=
  let mpd := w.mpd.edited env.edits
  (if env.answered then some mpd.queue.songs else none, { w with mpd := mpd })

/-- The loop over the queue: the position behind the song with this id, or behind the last
one when there is none. -/
def posAfterId (id : Int) : Nat → List MpdSong → Int
  | _, [] => 0
  | pos, song :: rest =>
      if song.id = unsigned id ∨ rest = [] then pos + 1 else posAfterId id (pos + 1) rest

/-- The condition of the fast path. -/
def RemembersId (cli : MpdCli) (id : Int) : Prop :=
  cli.m_lastinsertid = id ∧ 0 ≤ cli.m_lastinsertpos ∧ cli.m_lastinsertqvers = cli.m_stat.qvers

instance (cli : MpdCli) (id : Int) : Decidable (cli.RemembersId id) :=
  inferInstanceAs (Decidable (_ ∧ _ ∧ _))

/-- The slow path, which asks MPD where the song is. Failing to read the queue returns
`false`, which is 0. -/
def insertAfterReading (w : World) (uri : String) (id : Int) (song : UpSong) (list : ListEnv)
    (env : InsertEnv) : Int × World :=
  match getQueueSongs w list with
  | (none, w) => (0, w)
  | (some songs, w) => insert w uri (posAfterId id 0 songs) song env

def insertAfterId (w : World) (uri : String) (id : Int) (song : UpSong) (env : InsertAfterEnv) :
    Int × World :=
  if id = 0 then insert w uri 0 song env.insert
  else
    let asked := (updStatus w env.start).1
    if asked.cli.RemembersId id then
      insert asked uri (asked.cli.m_lastinsertpos + 1) song env.insert
    else insertAfterReading asked uri id song env.list env.insert

end MpdCli

namespace MpdCli

section Tags

variable {R : Mpd → Mpd → Prop} {id : Nat} (refl : ∀ m, R m m)
  (trans : ∀ m m' m'', R m m' → R m' m'' → R m m'')
  (tag : ∀ m m' name value, m.addTagId id name value = some m' → R m m')

include trans tag in
theorem sendTag_rel {e : Attempt} (edits : ∀ m, R m (m.edited e.edits))
    (name data : String) (mpd : Mpd) : R mpd (sendTag id name data e mpd).2 := by
  have executed (mpd' : Mpd) (result : Unit)
      (done : ((mpd.edited e.edits).addTagId id name (Smallut.neutchars data "\r\n" ' ')).map
        (fun mpd => ((), mpd)) = some (result, mpd')) : R mpd mpd' := by
    obtain ⟨_, added, same⟩ := Option.map_eq_some_iff.mp done
    cases same
    exact trans _ _ _ (edits mpd) (tag _ _ _ _ added)
  unfold sendTag Attempt.run
  dsimp only
  split
  · rename_i ran
    split at ran
    · rename_i done
      cases ran
      exact executed _ _ done
    · cases ran
    · cases ran
  · rename_i ran
    split at ran
    · cases ran
    · rename_i done
      cases ran
      exact executed _ _ done
    · cases ran
      exact edits mpd

include refl trans tag in
/-- What every tag does, and what the others do meanwhile, is what the tags do together. -/
theorem sendTags_rel (tags : List (String × String)) {env : List Attempt}
    (edits : ∀ e ∈ env, ∀ m, R m (m.edited e.edits)) (mpd : Mpd) :
    R mpd (sendTags id tags env mpd) := by
  induction tags generalizing env mpd with
  | nil => exact refl mpd
  | cons entry rest ih =>
      obtain ⟨name, data⟩ := entry
      cases env with
      | nil => exact refl mpd
      | cons e env =>
          have first := sendTag_rel trans tag (edits e List.mem_cons_self) name data mpd
          unfold sendTags
          split <;> rename_i sent <;> rw [sent] at first
          · exact trans _ _ _ first
              (ih (fun other member => edits other (List.mem_cons_of_mem _ member)) _)
          · exact first

include refl trans tag in
theorem sendTagData_rel (cli : MpdCli) (song : UpSong) {env : List Attempt}
    (edits : ∀ e ∈ env, ∀ m, R m (m.edited e.edits)) (mpd : Mpd) :
    R mpd (sendTagData cli id song env mpd) := by
  unfold sendTagData
  split
  · exact sendTags_rel refl trans tag _ edits mpd
  · exact refl mpd

end Tags

end MpdCli

/-- What can happen to the queue and to what is remembered: our own insertions, the status
requests of every other thread, and every edit which is not an insertion of ours. -/
inductive InsertAct
  | insert (uri : String) (pos : Int) (song : UpSong) (env : InsertEnv)
  | insertAfterId (uri : String) (id : Int) (song : UpSong) (env : InsertAfterEnv)
  | updStatus (env : StatusEnv)
  | edit (queue : MpdQueue)

namespace InsertAct

open MpdCli

def step (w : World) : InsertAct → Option (World × Int)
  | .insert uri pos song env =>
      let (id, w) := MpdCli.insert w uri pos song env
      some (w, id)
  | .insertAfterId uri id song env =>
      let (id, w) := MpdCli.insertAfterId w uri id song env
      some (w, id)
  | .updStatus env => some ((Upmpdcli.updStatus w env).1, 0)
  | .edit queue => some ({ w with mpd := w.mpd.setQueue queue }, 0)

/-- The song with the remembered id is in the remembered position. -/
def LastInPlace (w : World) : Prop :=
  w.mpd.queue.ids[w.cli.m_lastinsertpos.toNat]?.map Int.ofNat = some w.cli.m_lastinsertid

/-- What is wanted of an insertion which takes the fast path: the song is where it is
remembered to be, and the slow path reading the queue now would have the same result. -/
def SamePlace (w : World) : InsertAct → World → Int → Prop
  | .insertAfterId uri id song env, _, _ =>
      let asked := (Upmpdcli.updStatus w env.start).1
      id ≠ 0 ∧ asked.cli.RemembersId id →
        LastInPlace asked ∧
          MpdCli.insertAfterId w uri id song env =
            insertAfterReading asked uri id song {} env.insert
  | _, _, _ => True

/-- No foreign edit of the queue comes between adding the song and the status which is
remembered with it. -/
def Undisturbed (env : InsertEnv) : Prop :=
  env.status.answered = true →
    env.tags.all (·.edits = []) = true ∧ env.status.before = []

/-- The condition on each step. -/
def Safe (w : World) : InsertAct → World → Int → Prop
  | .insert _ pos _ env, _, _ => 0 ≤ pos → Undisturbed env
  | .insertAfterId _ id _ env, _, _ =>
      Undisturbed env.insert ∧
        (id ≠ 0 ∧ w.cli.m_lastinsertid = id ∧ 0 ≤ w.cli.m_lastinsertpos →
          id ≠ -1 ∧ env.start.answered = true ∧ env.start.during = [])
  | _, _, _ => True

instance (w : World) : Decidable (LastInPlace w) := inferInstanceAs (Decidable (_ = _))

instance (w : World) : ∀ action next result, Decidable (SamePlace w action next result)
  | .insertAfterId .., _, _ => inferInstanceAs (Decidable (_ → _))
  | .insert .., _, _ | .updStatus _, _, _ | .edit _, _, _ => .isTrue trivial

instance (env : InsertEnv) : Decidable (Undisturbed env) := inferInstanceAs (Decidable (_ → _))

instance (w : World) : ∀ action next result, Decidable (Safe w action next result)
  | .insert .., _, _ => inferInstanceAs (Decidable (_ → _))
  | .insertAfterId .., _, _ => inferInstanceAs (Decidable (_ ∧ _))
  | .updStatus _, _, _ | .edit _, _, _ => .isTrue trivial

end InsertAct

end Upmpdcli
