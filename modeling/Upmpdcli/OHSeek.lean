import Upmpdcli.OHPlaylist
import Upmpdcli.OHRadio

set_option autoImplicit false

/- The relative seek of the playlist and of the radio. The sum of the offset and the elapsed
time is made of machine integers, of which MPD gets the unsigned one. -/
namespace Upmpdcli

/-- How a seek action ends: its result, and what the `seek` command was sent with, if it was. -/
structure SeekReply where
  code : UpnpCode
  sent : Option (Nat × Nat) := none
deriving DecidableEq

namespace MpdCli

/-- The position in the queue and the time which `seek` sends, after its status request. -/
def seekArgs (w : World) (seconds : Int) (env : PlayEnv) : Option (Nat × Nat) :=
  let (w, told) := updStatus w env.status
  let songpos := w.cli.m_stat.songpos
  if told = false ∨ songpos < 0 then none else some (unsigned songpos, unsigned seconds)

/-- MPD gets no other command. -/
theorem seek_of_seekArgs {w : World} {seconds : Int} {env : PlayEnv} {pos time : Nat}
    (sent : seekArgs w seconds env = some (pos, time)) :
    seek w seconds env =
      command (updStatus w env.status).1 env.cmd fun _ mpd => mpd.seekPos pos time := by
  unfold seekArgs at sent
  unfold seek
  cases asked : updStatus w env.status with
  | mk w' told =>
      rw [asked] at sent
      cases told with
      | false => simp at sent
      | true =>
          simp at sent
          obtain ⟨there, rfl, rfl⟩ := sent
          simp only [if_neg (Int.not_lt.mpr there)]

theorem time_of_seekArgs {w : World} {seconds : Int} {env : PlayEnv} {pos time : Nat}
    (sent : seekArgs w seconds env = some (pos, time)) : time = unsigned seconds := by
  simp only [seekArgs] at sent
  split at sent
  · cases sent
  · cases sent
    rfl

end MpdCli

/-- `seconds += mpds.songelapsedms / 1000`: the sum is unsigned, and an `int` keeps it. -/
def addElapsed (seconds : Int32) (songelapsedms : Nat) : Int32 :=
  (seconds.toUInt32 + UInt32.ofNat (songelapsedms / 1000)).toInt32

/-- What the two services do with the `Value` of the action. -/
def seekRelative (w : World) (value : Option Int32) (env : PlayEnv) : SeekReply × World :=
  match value with
  | none => ({ code := .internalError }, w)
  | some seconds =>
      let mpds := w.cli.m_stat
      if mpds.state = .play ∨ mpds.state = .pause then
        let seconds := (addElapsed seconds mpds.songelapsedms).toInt
        let (ok, after) := MpdCli.seek w seconds env
        ({ code := if ok then .success else .internalError
           sent := MpdCli.seekArgs w seconds env }, after)
      else ({ code := .internalError }, w)

def OHPlaylist.seekSecondRelative (pl : OHPlaylist) (w : World) (value : Option Int32)
    (env : PlayEnv) : SeekReply × World :=
  if pl.m_active then seekRelative w value env else ({ code := .internalError }, w)

/-- An inactive radio seeks too. -/
def OHRadio.seekSecondRelative (w : World) (value : Option Int32) (env : PlayEnv) :
    SeekReply × World :=
  seekRelative w value env

/-- Where the seek is to end, in seconds. -/
def seekTarget (offset : Int32) (songelapsedms : Nat) : Int :=
  max 0 (offset.toInt + (songelapsedms / 1000 : Nat))

theorem unsigned_toInt (seconds : Int32) : unsigned seconds.toInt = seconds.toBitVec.toNat := by
  have small := seconds.toBitVec.isLt
  unfold unsigned
  rw [show seconds.toInt = seconds.toBitVec.toInt from rfl, BitVec.toInt_eq_toNat_cond]
  split <;> split <;> omega

/-- What is sent is the sum modulo 2^32. -/
theorem unsigned_addElapsed (offset : Int32) (songelapsedms : Nat) :
    (unsigned (addElapsed offset songelapsedms).toInt : Int) =
      (offset.toInt + (songelapsedms / 1000 : Nat)) % 2 ^ 32 := by
  have small := offset.toBitVec.isLt
  have sum : (addElapsed offset songelapsedms).toBitVec =
      offset.toBitVec + BitVec.ofNat 32 (songelapsedms / 1000) := rfl
  rw [unsigned_toInt, sum, show offset.toInt = offset.toBitVec.toInt from rfl,
    BitVec.toInt_eq_toNat_cond, BitVec.toNat_add, BitVec.toNat_ofNat]
  split <;> omega

theorem sent_seekRelative {w : World} {offset : Int32} {env : PlayEnv} {pos time : Nat}
    (sent : (seekRelative w (some offset) env).1.sent = some (pos, time)) :
    (time : Int) = (offset.toInt + (w.cli.m_stat.songelapsedms / 1000 : Nat)) % 2 ^ 32 := by
  unfold seekRelative at sent
  dsimp only at sent
  split at sent
  · rw [MpdCli.time_of_seekArgs sent]
    apply unsigned_addElapsed
  · cases sent

/-- Both services send the position asked for exactly when it is not before the start of the
track. A `songelapsedms` is an `unsigned int`. -/
theorem seekSecondRelative_target_iff (pl : OHPlaylist) (w : World) (offset : Int32)
    (env : PlayEnv) (fits : w.cli.m_stat.songelapsedms < 2 ^ 32) {pos time : Nat}
    (sent : (pl.seekSecondRelative w (some offset) env).1.sent = some (pos, time) ∨
      (OHRadio.seekSecondRelative w (some offset) env).1.sent = some (pos, time)) :
    (time : Int) = seekTarget offset w.cli.m_stat.songelapsedms ↔
      0 ≤ offset.toInt + (w.cli.m_stat.songelapsedms / 1000 : Nat) := by
  have shared : (seekRelative w (some offset) env).1.sent = some (pos, time) := by
    rcases sent with playlist | radio
    · unfold OHPlaylist.seekSecondRelative at playlist
      split at playlist
      · exact playlist
      · cases playlist
    · exact radio
  have sum := sent_seekRelative shared
  have low := offset.le_toInt
  have high := offset.toInt_lt
  unfold seekTarget
  constructor
  · intro same
    -- a negative sum comes out as a time of more than 100 years
    by_contra negative
    omega
  · intro nonneg
    omega

/-- A player which is five seconds into its only song. -/
def fiveSecondsIn : World where
  cli := { m_stat := { state := .play, songelapsedms := 5000 } }
  mpd := {
    queue := ⟨[{ id := 1, uri := "http://host/a" }], by decide, by decide⟩
    state := .play
    songpos := some 0
    elapsedms := 5000 }

theorem seekSecondRelative_back_to_start :
    ((0 : Nat) : Int) = seekTarget (-5) 5000 ↔ 0 ≤ (-5 : Int32).toInt + (5000 / 1000 : Nat) := by
  have sent : (OHRadio.seekSecondRelative fiveSecondsIn (some (-5)) {}).1.sent = some (0, 0) := by
    decide
  exact seekSecondRelative_target_iff {} fiveSecondsIn (-5) {} (by decide) (.inr sent)

/-- Ten seconds back from there, MPD is sent to a place 136 years into the song. -/
theorem seekSecondRelative_before_start :
    ¬ ∀ (pl : OHPlaylist) (w : World) (offset : Int32) (env : PlayEnv),
      w.cli.m_stat.songelapsedms < 2 ^ 32 → ∀ pos time : Nat,
        ((pl.seekSecondRelative w (some offset) env).1.sent = some (pos, time) ∨
          (OHRadio.seekSecondRelative w (some offset) env).1.sent = some (pos, time)) →
        (time : Int) = seekTarget offset w.cli.m_stat.songelapsedms := by
  intro stays
  have sent : (OHRadio.seekSecondRelative fiveSecondsIn (some (-10)) {}).1.sent =
      some (0, 4294967291) := by decide
  exact absurd (stays {} fiveSecondsIn (-10) {} (by decide) 0 4294967291 (.inr sent)) (by decide)

end Upmpdcli
