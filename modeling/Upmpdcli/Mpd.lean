import Mathlib.Data.List.InsertIdx
import Mathlib.Data.List.Nodup
import Upmpdcli.Smallut

set_option autoImplicit false

/- The Music Player Daemon as its protocol shows it to a client: the queue with its
version, the modes, the mixer and the player. The program is a client of it. -/
namespace Upmpdcli

structure MpdSong where
  id : Nat
  uri : String
  tags : List (String × String) := []
  duration : Nat := 0
deriving DecidableEq

/-- A queue. The ids of its songs are distinct, and are numbers a client can hold in an
`int` and take for true. -/
structure MpdQueue where
  songs : List MpdSong
  distinct : (songs.map MpdSong.id).Nodup
  numbered : ∀ song ∈ songs, 0 < song.id ∧ song.id < 2 ^ 31
deriving DecidableEq

namespace MpdQueue

def empty : MpdQueue := ⟨[], List.nodup_nil, by simp⟩

def ids (q : MpdQueue) : List Nat := q.songs.map MpdSong.id

/-- A song can be inserted when its id is unused and its place is in the queue. -/
def insertAt (q : MpdQueue) (pos : Nat) (song : MpdSong) : Option MpdQueue :=
  if fits : (song.id ∉ q.ids ∧ 0 < song.id ∧ song.id < 2 ^ 31) ∧ pos ≤ q.songs.length then
    some ⟨q.songs.insertIdx pos song, by
      have same := (List.perm_insertIdx song q.songs fits.2).map MpdSong.id
      rw [List.map_cons] at same
      exact same.nodup_iff.mpr (List.nodup_cons.mpr ⟨fits.1.1, q.distinct⟩), by
      intro other member
      rcases (List.mem_insertIdx fits.2).mp member with rfl | old
      · exact fits.1.2
      · exact q.numbered other old⟩
  else none

/-- Add a tag value to the song with this id. -/
def addTag (q : MpdQueue) (id : Nat) (name value : String) : MpdQueue :=
  let tagged (song : MpdSong) : MpdSong :=
    if song.id = id then { song with tags := song.tags ++ [(name, value)] } else song
  have same (song : MpdSong) : (tagged song).id = song.id := by
    simp only [tagged]
    split <;> rfl
  ⟨q.songs.map tagged, by
    simpa only [List.map_map, Function.comp_def, same] using q.distinct, by
    intro song member
    obtain ⟨old, found, rfl⟩ := List.mem_map.mp member
    rw [same]
    exact q.numbered old found⟩

/-- The queue without the songs from `start` to `stop`. -/
def removeRange (q : MpdQueue) (start stop : Nat) : MpdQueue :=
  have kept : (q.songs.take start ++ (q.songs.drop start).drop (stop - start)).Sublist q.songs := by
    conv => rhs; rw [← List.take_append_drop start q.songs]
    exact (List.Sublist.refl _).append (List.drop_sublist _ _)
  ⟨q.songs.take start ++ (q.songs.drop start).drop (stop - start),
    (kept.map MpdSong.id).nodup q.distinct, fun song member => q.numbered song (kept.subset member)⟩

theorem songs_insertAt {q q' : MpdQueue} {pos : Nat} {song : MpdSong}
    (inserted : q.insertAt pos song = some q') :
    q'.songs = q.songs.insertIdx pos song ∧ pos ≤ q.songs.length := by
  unfold insertAt at inserted
  split at inserted
  · rename_i fits
    cases inserted
    exact ⟨rfl, fits.2⟩
  · cases inserted

theorem getElem?_insertAt {q q' : MpdQueue} {pos : Nat} {song : MpdSong}
    (inserted : q.insertAt pos song = some q') : q'.songs[pos]? = some song := by
  obtain ⟨songs, within⟩ := songs_insertAt inserted
  rw [songs, List.getElem?_insertIdx_self, if_pos within]

@[simp] theorem ids_addTag (q : MpdQueue) (id : Nat) (name value : String) :
    (q.addTag id name value).ids = q.ids := by
  simp only [ids, addTag, List.map_map]
  congr 1
  funext song
  simp only [Function.comp_apply]
  split <;> rfl

end MpdQueue

/-- `MpdStatus::State`, which follows the states MPD has. -/
inductive PlayState
  | unk
  | stop
  | play
  | pause
deriving DecidableEq

structure Mpd where
  queue : MpdQueue := .empty
  vers : Nat := 1
  rept : Bool := false
  random : Bool := false
  single : Bool := false
  consume : Bool := false
  volume : Int := 100
  state : PlayState := .stop
  songpos : Option Nat := none
  elapsedms : Nat := 0
deriving DecidableEq

namespace Mpd

/-- Every change of the queue changes its version. -/
def setQueue (m : Mpd) (queue : MpdQueue) : Mpd := { m with queue := queue, vers := m.vers + 1 }

/-- What other clients do to the queue, one after the other. -/
def edited (m : Mpd) (edits : List MpdQueue) : Mpd := edits.foldl setQueue m

def clear (m : Mpd) : Mpd :=
  { m.setQueue .empty with state := .stop, songpos := none, elapsedms := 0 }

/-- `addid URI [POS]`: the current song stays the same one. MPD chooses the new id. -/
def addId (m : Mpd) (uri : String) (pos newid : Nat) : Option (Nat × Mpd) :=
  (m.queue.insertAt pos { id := newid, uri := uri }).map fun queue =>
    (newid, { m.setQueue queue with
      songpos := m.songpos.map fun current => if pos ≤ current then current + 1 else current })

/-- `addtagid`, which MPD only accepts for songs which are not local files. -/
def addTagId (m : Mpd) (id : Nat) (name value : String) : Option Mpd :=
  match m.queue.songs.find? fun song => song.id = id with
  | none => none
  | some song =>
      if Smallut.contains song.uri "://" then
        some (m.setQueue (m.queue.addTag id name value))
      else none

def stop (m : Mpd) : Mpd := { m with state := .stop, elapsedms := 0 }

/-- The player goes to a song, or stops. -/
def moveTo (m : Mpd) : Option Nat → Mpd
  | some pos => { m with state := .play, songpos := some pos, elapsedms := 0 }
  | none => { m.stop with songpos := none }

/-- The current song is deleted: a playing MPD goes on with the song behind it, a paused one
stops there, and a stopped one has no current song any more. -/
def leaveDeleted (m : Mpd) (following : Option Nat) : Mpd :=
  match m.state with
  | .play => m.moveTo following
  | .pause => { m.stop with songpos := following }
  | .stop | .unk => { m with songpos := none }

/-- `delete START:STOP`, in the order of the queue. -/
def deleteRange (m : Mpd) (start stop : Nat) : Option Mpd :=
  if start < m.queue.songs.length then
    let queue := m.queue.removeRange start stop
    let deleted := m.setQueue queue
    some <|
      match m.songpos with
      | none => deleted
      | some current =>
          if current < start then deleted
          else if current < stop then
            deleted.leaveDeleted (if start < queue.songs.length then some start else none)
          else { deleted with songpos := some (current - (stop - start)) }
  else none

def deleteId (m : Mpd) (id : Nat) : Option Mpd :=
  match m.queue.ids.idxOf? id with
  | some pos => m.deleteRange pos (pos + 1)
  | none => none

/-- The length of the current track, which MPD tells while it plays or pauses. -/
def songlenms (m : Mpd) : Nat :=
  if m.state = .stop then 0
  else ((m.songpos.bind (m.queue.songs[·]?)).map fun song => song.duration * 1000).getD 0

/-- `play POS`. -/
def playPos (m : Mpd) (pos : Nat) : Option Mpd :=
  if pos < m.queue.songs.length then
    some { m with state := .play, songpos := some pos, elapsedms := 0 }
  else none

def playId (m : Mpd) (id : Nat) : Option Mpd := (m.queue.ids.idxOf? id).bind m.playPos

/-- `play` without a position starts with the current song, or with one MPD chooses. -/
def play (m : Mpd) (start : Nat) : Option Mpd :=
  match m.songpos with
  | some _ => some { m with state := .play }
  | none => if m.queue.songs = [] then some m else m.playPos start

/-- The position after the current one, which MPD chooses in the special modes. -/
def nextPos (m : Mpd) (current chosen : Nat) : Option Nat :=
  let pos := if m.rept ∨ m.random ∨ m.single then chosen else current + 1
  if pos < m.queue.songs.length then some pos else none

/-- `next`, and what MPD does at the end of a track. In the consume mode the song it leaves
is deleted. -/
def next (m : Mpd) (chosen : Nat) : Option Mpd :=
  if m.state = .play ∨ m.state = .pause then
    m.songpos.map fun current =>
      let moved := m.moveTo (m.nextPos current chosen)
      if m.consume then (moved.deleteRange current (current + 1)).getD moved else moved
  else none

/-- `seek POS TIME`. -/
def seekPos (m : Mpd) (pos seconds : Nat) : Option Mpd :=
  if pos < m.queue.songs.length then
    some { m with
      state := if m.state = .stop then .play else m.state
      songpos := some pos
      elapsedms := seconds * 1000 }
  else none

/-- `previous`, which stays on the first song. MPD chooses in the special modes. -/
def previous (m : Mpd) (chosen : Nat) : Option Mpd :=
  if m.state = .play ∨ m.state = .pause then
    m.songpos.map fun current =>
      let pos := if m.rept ∨ m.random then chosen else current - 1
      (m.playPos pos).getD m
  else none

/-- `pause` without an argument. -/
def togglePause (m : Mpd) : Mpd :=
  { m with
    state :=
      match m.state with
      | .play => .pause
      | .pause => .play
      | state => state }

/-- `pause`, which does nothing to a stopped player. -/
def setPause (m : Mpd) (onoff : Bool) : Mpd :=
  { m with state := if m.state = .stop then .stop else if onoff then .pause else .play }

@[simp] theorem setQueue_queue (m : Mpd) (queue : MpdQueue) : (m.setQueue queue).queue = queue :=
  rfl

@[simp] theorem setQueue_vers (m : Mpd) (queue : MpdQueue) :
    (m.setQueue queue).vers = m.vers + 1 := rfl

/-- The play modes stay. -/
def SameModes (m m' : Mpd) : Prop :=
  m'.rept = m.rept ∧ m'.random = m.random ∧ m'.single = m.single ∧ m'.consume = m.consume

theorem SameModes.refl (m : Mpd) : m.SameModes m := ⟨rfl, rfl, rfl, rfl⟩

theorem SameModes.trans (m m' m'' : Mpd) (first : m.SameModes m') (second : m'.SameModes m'') :
    m.SameModes m'' :=
  ⟨second.1.trans first.1, second.2.1.trans first.2.1, second.2.2.1.trans first.2.2.1,
    second.2.2.2.trans first.2.2.2⟩

theorem leaveDeleted_spec (m : Mpd) (following : Option Nat) :
    m.SameModes (m.leaveDeleted following) ∧ (m.leaveDeleted following).queue = m.queue := by
  unfold leaveDeleted
  cases m.state with
  | play => cases following <;> exact ⟨⟨rfl, rfl, rfl, rfl⟩, rfl⟩
  | pause => exact ⟨⟨rfl, rfl, rfl, rfl⟩, rfl⟩
  | stop => exact ⟨⟨rfl, rfl, rfl, rfl⟩, rfl⟩
  | unk => exact ⟨⟨rfl, rfl, rfl, rfl⟩, rfl⟩

/-- What a deletion leaves. A current song outside the range stays the current one. -/
theorem deleteRange_spec {m m' : Mpd} {start stop : Nat}
    (deleted : m.deleteRange start stop = some m') :
    m.SameModes m' ∧ m'.queue = m.queue.removeRange start stop ∧
      ((∀ pos ∈ m.songpos, pos < start ∨ stop ≤ pos) →
        m'.state = m.state ∧ m'.songpos = m.songpos.map fun current =>
          if current < start then current else current - (stop - start)) := by
  unfold deleteRange at deleted
  split at deleted
  · cases deleted
    cases current : m.songpos with
    | none => exact ⟨⟨rfl, rfl, rfl, rfl⟩, rfl, fun _ => ⟨rfl, current⟩⟩
    | some pos =>
        dsimp only
        by_cases before : pos < start
        · rw [if_pos before]
          refine ⟨⟨rfl, rfl, rfl, rfl⟩, rfl, fun _ => ⟨rfl, ?_⟩⟩
          rw [Option.map_some, if_pos before]
          exact current
        · rw [if_neg before]
          by_cases inside : pos < stop
          · rw [if_pos inside]
            obtain ⟨modes, queue⟩ := leaveDeleted_spec (m.setQueue (m.queue.removeRange start stop))
              (if start < (m.queue.removeRange start stop).songs.length then some start else none)
            refine ⟨modes, queue, fun outside => ?_⟩
            have here := outside pos rfl
            omega
          · rw [if_neg inside]
            refine ⟨⟨rfl, rfl, rfl, rfl⟩, rfl, fun _ => ⟨rfl, ?_⟩⟩
            rw [Option.map_some, if_neg before]
  · cases deleted

theorem deleteRange_of_lt (m : Mpd) {start : Nat} (stop : Nat)
    (there : start < m.queue.songs.length) : ∃ m', m.deleteRange start stop = some m' :=
  ⟨_, if_pos there⟩

theorem lt_of_deleteRange {m m' : Mpd} {start stop : Nat}
    (deleted : m.deleteRange start stop = some m') : start < m.queue.songs.length := by
  by_contra outside
  rw [deleteRange, if_neg outside] at deleted
  cases deleted

theorem vers_edited (m : Mpd) (edits : List MpdQueue) :
    (m.edited edits).vers = m.vers + edits.length := by
  induction edits generalizing m with
  | nil => rfl
  | cons queue rest ih =>
      have later := ih (m.setQueue queue)
      rw [setQueue_vers] at later
      simp only [edited, List.foldl_cons, List.length_cons] at later ⊢
      omega

@[simp] theorem volume_edited (m : Mpd) (edits : List MpdQueue) :
    (m.edited edits).volume = m.volume := by
  induction edits generalizing m with
  | nil => rfl
  | cons queue rest ih => exact ih (m.setQueue queue)

theorem addId_eq_some_iff (m m' : Mpd) (uri : String) (pos newid id : Nat) :
    m.addId uri pos newid = some (id, m') ↔ id = newid ∧ ∃ queue,
      m.queue.insertAt pos { id := newid, uri := uri } = some queue ∧
        m' = { m.setQueue queue with
          songpos := m.songpos.map fun current => if pos ≤ current then current + 1 else current } := by
  simp only [addId, Option.map_eq_some_iff, Prod.mk.injEq]
  constructor
  · rintro ⟨queue, inserted, rfl, rfl⟩
    exact ⟨rfl, queue, inserted, rfl⟩
  · rintro ⟨rfl, queue, inserted, rfl⟩
    exact ⟨queue, inserted, rfl, rfl⟩

/-- Tagging a song keeps the ids in their places. -/
theorem addTagId_of_some {m m' : Mpd} {id : Nat} {name value : String}
    (tagged : m.addTagId id name value = some m') :
    m'.queue.ids = m.queue.ids ∧ m'.vers = m.vers + 1 := by
  unfold addTagId at tagged
  split at tagged
  · cases tagged
  · split at tagged
    · cases tagged
      exact ⟨m.queue.ids_addTag id name value, rfl⟩
    · cases tagged

end Mpd

end Upmpdcli
