import Mathlib.Logic.Function.Basic
import Upmpdcli.Lib.Machine

set_option autoImplicit false

/- The translation of the paths of media by the threads of the HTTP connections, which share one
record of the last translation. -/
namespace Upmpdcli

/-- `StreamHandle`, the record. -/
structure StreamHandle where
  path : String := ""
  media_url : String := ""
  opentime : Int := 0

/-- The next statement on the record of a call which rewrites it. `clear` is the first three. -/
inductive Rewrite
  | clearPath
  | clearUrl
  | clearTime
  | setPath
  | setUrl
  | setTime
deriving DecidableEq

def Rewrite.follow : Rewrite → Option Rewrite
  | .clearPath => some .clearUrl
  | .clearUrl => some .clearTime
  | .clearTime => some .setPath
  | .setPath => some .setUrl
  | .setUrl => some .setTime
  | .setTime => none

/-- Where a thread is in `get_media_url`. -/
inductive MediaCall
  | idle
  | maybeStartCmd (path : String)
  | testPath (path : String) (now : Int)
  | testTime (path : String) (now : Int)
  | callproc (path : String) (now : Int)
  | rewrite (path : String) (now : Int) (url : String) (next : Rewrite)
  | finish (path : String)
deriving DecidableEq

/-- What a statement finds: whether the command runs, the clock, and the reply of the plugin with
its `media_url`. -/
structure MediaEnv where
  started : Bool := true
  clock : Int := 0
  reply : Option (Option String) := none

/-- The threads, the record, and what the plugin has replied for the paths. -/
structure MediaThreads (ι : Type) where
  laststream : StreamHandle := {}
  calls : ι → MediaCall := fun _ => .idle
  replied : List (String × String) := []

namespace MediaCall

/-- The path for which a call relies on the record: it has found the path there, or begun to
rewrite it, and has not returned yet. -/
def reliesOn : MediaCall → Option String
  | .testTime path _ => some path
  | .rewrite _ _ _ .clearPath => none
  | .rewrite path _ _ _ => some path
  | .finish path => some path
  | _ => none

/-- The path for which the next statement begins to rely on the record. -/
def takesUp (laststream : StreamHandle) : MediaCall → Option String
  | .testPath path _ => if laststream.path = path then some path else none
  | .rewrite path _ _ .clearPath => some path
  | _ => none

end MediaCall

namespace MediaThreads

variable {ι : Type} [DecidableEq ι]

/-- A thread gets a request for a path, or goes on by a statement. -/
inductive Act (ι : Type)
  | request (thread : ι) (path : String)
  | statement (thread : ι) (env : MediaEnv)

/-- A statement which rewrites the record. -/
def rewriteBy (laststream : StreamHandle) (path : String) (now : Int) (url : String) :
    Rewrite → StreamHandle
  | .clearPath => { laststream with path := "" }
  | .clearUrl => { laststream with media_url := "" }
  | .clearTime => { laststream with opentime := 0 }
  | .setPath => { laststream with path }
  | .setUrl => { laststream with media_url := url }
  | .setTime => { laststream with opentime := now }

def goTo (s : MediaThreads ι) (thread : ι) (call : MediaCall) : MediaThreads ι :=
  { s with calls := Function.update s.calls thread call }

/-- One statement of `get_media_url`, with its path and result when it returns. -/
def statement (s : MediaThreads ι) (thread : ι) (env : MediaEnv) :
    Option (MediaThreads ι × Option (String × String)) :=
  match s.calls thread with
  | .idle => none
  | .maybeStartCmd path =>
      if env.started then some (s.goTo thread (.testPath path env.clock), none)
      else some (s.goTo thread .idle, some (path, ""))
  | .testPath path now =>
      if s.laststream.path = path then some (s.goTo thread (.testTime path now), none)
      else some (s.goTo thread (.callproc path now), none)
  | .testTime path now =>
      if now - s.laststream.opentime > 10 then some (s.goTo thread (.callproc path now), none)
      else some (s.goTo thread (.finish path), none)
  | .callproc path now =>
      match env.reply with
      | some (some url) =>
          some ({ s.goTo thread (.rewrite path now url .clearPath) with
            replied := (path, url) :: s.replied }, none)
      | _ => some (s.goTo thread .idle, some (path, ""))
  | .rewrite path now url next =>
      let s := { s with laststream := rewriteBy s.laststream path now url next }
      match next.follow with
      | some next => some (s.goTo thread (.rewrite path now url next), none)
      | none => some (s.goTo thread (.finish path), none)
  | .finish path => some (s.goTo thread .idle, some (path, s.laststream.media_url))

def step (s : MediaThreads ι) : Act ι → Option (MediaThreads ι × Option (String × String))
  | .request thread path =>
      if s.calls thread = .idle then some (s.goTo thread (.maybeStartCmd path), none) else none
  | .statement thread env => s.statement thread env

/-- A result is empty, or the plugin has replied it for the same path. -/
def OwnUrl (_ : MediaThreads ι) (_ : Act ι) (t : MediaThreads ι)
    (result : Option (String × String)) : Prop :=
  ∀ path url, result = some (path, url) → url = "" ∨ (path, url) ∈ t.replied

/-- The other threads rely on the record for this path only. -/
def Shares (s : MediaThreads ι) (thread : ι) (path : String) : Prop :=
  ∀ other, other ≠ thread → ∀ relied ∈ (s.calls other).reliesOn, relied = path

/-- A path is not empty, and a call which finds its path in the record or begins to rewrite it does
so while no call relies on the record for another path. -/
def Alone (s : MediaThreads ι) (act : Act ι) (_ : MediaThreads ι)
    (_ : Option (String × String)) : Prop :=
  match act with
  | .request _ path => path ≠ ""
  | .statement thread _ => ∀ path ∈ (s.calls thread).takesUp s.laststream, s.Shares thread path

instance (s : MediaThreads Bool) (thread : Bool) (path : String) :
    Decidable (s.Shares thread path) :=
  inferInstanceAs (Decidable (∀ other, other ≠ thread → ∀ relied ∈ (s.calls other).reliesOn,
    relied = path))

instance (s : MediaThreads Bool) (t : MediaThreads Bool) (result : Option (String × String)) :
    ∀ act, Decidable (Alone s act t result)
  | .request _ path => inferInstanceAs (Decidable (path ≠ ""))
  | .statement thread _ =>
      inferInstanceAs (Decidable (∀ path ∈ (s.calls thread).takesUp s.laststream,
        s.Shares thread path))

instance (s : MediaThreads ι) (act : Act ι) (t : MediaThreads ι) :
    ∀ result, Decidable (OwnUrl s act t result)
  | none => .isTrue nofun
  | some (path, url) =>
      decidable_of_iff (url = "" ∨ (path, url) ∈ t.replied) (by
        constructor
        · rintro own _ _ ⟨⟩
          exact own
        · exact fun own => own path url rfl)

/-- The url of the record is empty, or a reply for the path. -/
def UrlOf (laststream : StreamHandle) (replied : List (String × String)) (path : String) : Prop :=
  laststream.media_url = "" ∨ (path, laststream.media_url) ∈ replied

/-- What holds of a call which goes on with the record. -/
def Sound (laststream : StreamHandle) (replied : List (String × String)) : MediaCall → Prop
  | .idle => True
  | .maybeStartCmd path => path ≠ ""
  | .testPath path _ => path ≠ ""
  | .testTime path _ => path ≠ "" ∧ UrlOf laststream replied path
  | .callproc path _ => path ≠ ""
  | .rewrite path _ url .clearPath => path ≠ "" ∧ (path, url) ∈ replied
  | .rewrite path _ url .clearUrl =>
      path ≠ "" ∧ (path, url) ∈ replied ∧ (laststream.path = "" ∨ laststream.path = path)
  | .rewrite path _ url _ =>
      path ≠ "" ∧ (path, url) ∈ replied ∧ (laststream.path = "" ∨ laststream.path = path) ∧
        UrlOf laststream replied path
  | .finish path => path ≠ "" ∧ UrlOf laststream replied path

/-- The invariant of the threads. -/
structure Isolated (s : MediaThreads ι) : Prop where
  record : s.laststream.path ≠ "" → UrlOf s.laststream s.replied s.laststream.path
  calls : ∀ thread, Sound s.laststream s.replied (s.calls thread)
  agree : ∀ i j, ∀ path ∈ (s.calls i).reliesOn, ∀ other ∈ (s.calls j).reliesOn, path = other

section Records

variable {laststream next : StreamHandle} {replied more : List (String × String)}
  {path url : String} {call : MediaCall}

theorem UrlOf.mono (urlOf : UrlOf laststream replied path) (sub : replied ⊆ more) :
    UrlOf laststream more path :=
  urlOf.imp id (sub ·)

theorem Sound.mono (sound : Sound laststream replied call) (sub : replied ⊆ more) :
    Sound laststream more call := by
  cases call with
  | idle => trivial
  | maybeStartCmd path => exact sound
  | testPath path now => exact sound
  | testTime path now => exact ⟨sound.1, sound.2.mono sub⟩
  | callproc path now => exact sound
  | rewrite path now url next =>
      cases next with
      | clearPath => exact ⟨sound.1, sub sound.2⟩
      | clearUrl => exact ⟨sound.1, sub sound.2.1, sound.2.2⟩
      | clearTime | setPath | setUrl | setTime =>
          exact ⟨sound.1, sub sound.2.1, sound.2.2.1, sound.2.2.2.mono sub⟩
  | finish path => exact ⟨sound.1, sound.2.mono sub⟩

/-- A statement of a call for a path writes only what belongs to the path. -/
structure Writes (laststream next : StreamHandle) (path url : String) : Prop where
  path : next.path = laststream.path ∨ next.path = "" ∨ next.path = path
  media_url : next.media_url = laststream.media_url ∨ next.media_url = "" ∨ next.media_url = url

theorem rewriteBy_writes (laststream : StreamHandle) (path : String) (now : Int) (url : String)
    (rewrite : Rewrite) : Writes laststream (rewriteBy laststream path now url rewrite) path url := by
  cases rewrite with
  | clearPath => exact ⟨.inr (.inl rfl), .inl rfl⟩
  | clearUrl => exact ⟨.inl rfl, .inr (.inl rfl)⟩
  | clearTime => exact ⟨.inl rfl, .inl rfl⟩
  | setPath => exact ⟨.inr (.inr rfl), .inl rfl⟩
  | setUrl => exact ⟨.inl rfl, .inr (.inr rfl)⟩
  | setTime => exact ⟨.inl rfl, .inl rfl⟩

theorem UrlOf.writes (urlOf : UrlOf laststream replied path)
    (writes : Writes laststream next path url) (known : (path, url) ∈ replied) :
    UrlOf next replied path := by
  rcases writes.media_url with same | empty | set
  · rw [UrlOf, same]
    exact urlOf
  · exact .inl empty
  · rw [UrlOf, set]
    exact .inr known

/-- The calls which rely on the record for the same path, or do not, go on. -/
theorem Sound.writes (sound : Sound laststream replied call)
    (writes : Writes laststream next path url) (known : (path, url) ∈ replied)
    (shares : ∀ relied ∈ call.reliesOn, relied = path) : Sound next replied call := by
  have place : laststream.path = "" ∨ laststream.path = path →
      next.path = "" ∨ next.path = path := by
    intro place
    rcases writes.path with same | other
    · rw [same]
      exact place
    · exact other
  cases call with
  | idle => trivial
  | maybeStartCmd relied => exact sound
  | testPath relied now => exact sound
  | testTime relied now =>
      cases shares relied rfl
      exact ⟨sound.1, sound.2.writes writes known⟩
  | callproc relied now => exact sound
  | rewrite relied now own rewrite =>
      cases rewrite with
      | clearPath => exact sound
      | clearUrl =>
          cases shares relied rfl
          exact ⟨sound.1, sound.2.1, place sound.2.2⟩
      | clearTime | setPath | setUrl | setTime =>
          cases shares relied rfl
          exact ⟨sound.1, sound.2.1, place sound.2.2.1, sound.2.2.2.writes writes known⟩
  | finish relied =>
      cases shares relied rfl
      exact ⟨sound.1, sound.2.writes writes known⟩

end Records

section Steps

variable {s : MediaThreads ι} {thread : ι} {call : MediaCall}

@[simp] theorem goTo_self : (s.goTo thread call).calls thread = call := by
  simp [MediaThreads.goTo]

theorem goTo_other {other : ι} (ne : other ≠ thread) :
    (s.goTo thread call).calls other = s.calls other := by
  simp [MediaThreads.goTo, ne]

omit [DecidableEq ι] in
theorem Isolated.shares (isolated : s.Isolated) (path : String)
    (relies : path ∈ (s.calls thread).reliesOn) : s.Shares thread path :=
  fun other _ relied relies' => isolated.agree other thread relied relies' path relies

/-- A thread goes on, while the record and the replies are such that the calls are sound. -/
theorem Isolated.goTo (isolated : s.Isolated) {laststream : StreamHandle}
    {replied : List (String × String)}
    (record : laststream.path ≠ "" → UrlOf laststream replied laststream.path)
    (others : ∀ other, other ≠ thread → Sound laststream replied (s.calls other))
    (sound : Sound laststream replied call)
    (shares : ∀ path ∈ call.reliesOn, s.Shares thread path) :
    Isolated { s.goTo thread call with laststream, replied } where
  record := record
  calls := by
    intro other
    by_cases same : other = thread
    · subst same
      dsimp only
      rw [goTo_self]
      exact sound
    · dsimp only
      rw [goTo_other same]
      exact others other same
  agree := by
    intro i j path relies other relies'
    dsimp only at relies relies'
    by_cases first : i = thread
    · subst first
      rw [goTo_self] at relies
      by_cases second : j = i
      · subst second
        rw [goTo_self] at relies'
        exact Option.some.inj (relies.symm.trans relies')
      · rw [goTo_other second] at relies'
        exact (shares path relies j second other relies').symm
    · rw [goTo_other first] at relies
      by_cases second : j = thread
      · subst second
        rw [goTo_self] at relies'
        exact shares other relies' i first path relies
      · rw [goTo_other second] at relies'
        exact isolated.agree i j path relies other relies'

/-- A thread goes on and leaves the record. -/
theorem Isolated.follow (isolated : s.Isolated) (sound : Sound s.laststream s.replied call)
    (shares : ∀ path ∈ call.reliesOn, s.Shares thread path) : (s.goTo thread call).Isolated :=
  isolated.goTo isolated.record (fun other _ => isolated.calls other) sound shares

omit [DecidableEq ι] in
/-- The record after a statement which rewrites it. -/
theorem Isolated.rewritten (isolated : s.Isolated) {path : String} {now : Int} {url : String}
    {rewrite : Rewrite} (at_call : s.calls thread = .rewrite path now url rewrite)
    (laststream : StreamHandle)
    (written : laststream = rewriteBy s.laststream path now url rewrite) :
    (laststream.path ≠ "" → UrlOf laststream s.replied laststream.path) := by
  subst written
  have sound := isolated.calls thread
  rw [at_call] at sound
  intro nonempty
  cases rewrite with
  | clearPath => exact absurd rfl nonempty
  | clearUrl => exact .inl rfl
  | clearTime => exact isolated.record nonempty
  | setPath => exact sound.2.2.2
  | setUrl =>
      rcases sound.2.2.1 with empty | same
      · exact absurd empty nonempty
      · refine .inr ?_
        change (s.laststream.path, url) ∈ s.replied
        rw [same]
        exact sound.2.1
  | setTime => exact isolated.record nonempty

omit [DecidableEq ι] in
/-- The next call after a statement which rewrites the record. -/
theorem Isolated.followed (isolated : s.Isolated) {path : String} {now : Int} {url : String}
    {rewrite : Rewrite} (at_call : s.calls thread = .rewrite path now url rewrite) :
    Sound (rewriteBy s.laststream path now url rewrite) s.replied
      (match rewrite.follow with
        | some next => .rewrite path now url next
        | none => .finish path) := by
  have sound := isolated.calls thread
  rw [at_call] at sound
  cases rewrite with
  | clearPath => exact ⟨sound.1, sound.2, .inl rfl⟩
  | clearUrl => exact ⟨sound.1, sound.2.1, sound.2.2, .inl rfl⟩
  | clearTime => exact sound
  | setPath => exact ⟨sound.1, sound.2.1, .inr rfl, sound.2.2.2⟩
  | setUrl => exact ⟨sound.1, sound.2.1, sound.2.2.1, .inr sound.2.1⟩
  | setTime => exact ⟨sound.1, sound.2.2.2⟩

variable {next : MediaThreads ι} {result : Option (String × String)} {env : MediaEnv}

theorem Isolated.statement (isolated : s.Isolated)
    (alone : Alone s (.statement thread env) next result)
    (taken : s.statement thread env = some (next, result)) :
    next.Isolated ∧ OwnUrl s (.statement thread env) next result := by
  have sound := isolated.calls thread
  unfold MediaThreads.statement at taken
  replace alone : ∀ path ∈ (s.calls thread).takesUp s.laststream, s.Shares thread path := alone
  cases at_call : s.calls thread with
  | idle =>
      rw [at_call] at taken
      exact absurd taken (by simp)
  | maybeStartCmd path =>
      rw [at_call] at taken sound
      dsimp only at taken
      split at taken
      · cases taken
        exact ⟨isolated.follow sound nofun, nofun⟩
      · cases taken
        refine ⟨isolated.follow trivial nofun, ?_⟩
        rintro _ _ ⟨⟩
        exact .inl rfl
  | testPath path now =>
      rw [at_call] at taken sound alone
      dsimp only at taken
      split at taken
      · rename_i found
        cases taken
        have urlOf := isolated.record (found ▸ sound)
        rw [found] at urlOf
        refine ⟨isolated.follow ⟨sound, urlOf⟩ ?_, nofun⟩
        rintro _ ⟨⟩
        exact alone path (by rw [MediaCall.takesUp, if_pos found]; rfl)
      · cases taken
        exact ⟨isolated.follow sound nofun, nofun⟩
  | testTime path now =>
      have shares := isolated.shares path (by rw [at_call]; rfl)
      rw [at_call] at taken sound
      dsimp only at taken
      split at taken
      · cases taken
        exact ⟨isolated.follow sound.1 nofun, nofun⟩
      · cases taken
        refine ⟨isolated.follow sound ?_, nofun⟩
        rintro _ ⟨⟩
        exact shares
  | callproc path now =>
      rw [at_call] at taken sound
      dsimp only at taken
      split at taken
      · rename_i url replied
        cases taken
        have sub : s.replied ⊆ (path, url) :: s.replied := List.subset_cons_self _ _
        refine ⟨isolated.goTo (fun nonempty => (isolated.record nonempty).mono sub) ?_ ?_ nofun,
          nofun⟩
        · intro other _
          exact (isolated.calls other).mono sub
        · exact ⟨sound, List.mem_cons_self⟩
      · cases taken
        refine ⟨isolated.follow trivial nofun, ?_⟩
        rintro _ _ ⟨⟩
        exact .inl rfl
  | rewrite path now url rewrite =>
      have record := isolated.rewritten at_call _ rfl
      have followed := isolated.followed at_call
      have shares : s.Shares thread path := by
        cases rewrite with
        | clearPath =>
            exact alone path (by rw [at_call]; rfl)
        | clearUrl | clearTime | setPath | setUrl | setTime =>
            exact isolated.shares _ (by rw [at_call]; rfl)
      have known : (path, url) ∈ s.replied := by
        rw [at_call] at sound
        cases rewrite with
        | clearPath => exact sound.2
        | clearUrl | clearTime | setPath | setUrl | setTime => exact sound.2.1
      have others : ∀ other, other ≠ thread →
          Sound (rewriteBy s.laststream path now url rewrite) s.replied (s.calls other) :=
        fun other ne => (isolated.calls other).writes (rewriteBy_writes _ _ _ _ _) known
          (shares other ne)
      rw [at_call] at taken
      dsimp only at taken
      cases later : rewrite.follow with
      | some then_ =>
          rw [later] at taken followed
          cases taken
          refine ⟨isolated.goTo record others followed ?_, nofun⟩
          intro relied relies
          have same : relied = path := by
            cases then_ with
            | clearPath => exact absurd relies (by simp [MediaCall.reliesOn])
            | clearUrl | clearTime | setPath | setUrl | setTime =>
                exact (Option.some.inj relies).symm
          rw [same]
          exact shares
      | none =>
          rw [later] at taken followed
          cases taken
          refine ⟨isolated.goTo record others followed ?_, nofun⟩
          rintro _ ⟨⟩
          exact shares
  | finish path =>
      rw [at_call] at taken sound
      cases taken
      refine ⟨isolated.follow trivial nofun, ?_⟩
      rintro _ _ ⟨⟩
      exact sound.2

theorem Isolated.step (isolated : s.Isolated) {act : Act ι} (alone : Alone s act next result)
    (taken : s.step act = some (next, result)) :
    next.Isolated ∧ OwnUrl s act next result := by
  cases act with
  | statement thread env => exact isolated.statement alone taken
  | request thread path =>
      unfold MediaThreads.step at taken
      dsimp only at taken
      split at taken
      · cases taken
        exact ⟨isolated.follow alone nofun, nofun⟩
      · exact absurd taken (by simp)

end Steps

/-- In every run in which the calls that use the record at one time are for one path, each call
returns an empty string or a url of its own path. -/
theorem ownUrl_of_alone (acts : List (Act ι))
    (alone : Machine.Along Alone step ({} : MediaThreads ι) acts) :
    Machine.Along OwnUrl step ({} : MediaThreads ι) acts := by
  have start : ({} : MediaThreads ι).Isolated :=
    ⟨fun nonempty => absurd rfl nonempty, fun _ => trivial, nofun⟩
  refine Machine.along_of_invariant ?_ _ acts start alone
  intro s act t result isolated met taken
  exact isolated.step met taken

/-- A call whose path is not found, to its last statement. -/
def missing (thread : ι) (path url : String) (clock : Int) : List (Act ι) :=
  [.request thread path, .statement thread {}, .statement thread { clock },
    .statement thread { reply := some (some url) }] ++ List.replicate 6 (.statement thread {})

/-- The calls of two threads, one after the other. -/
theorem ownUrl_sequence :
    Machine.Along OwnUrl step ({} : MediaThreads Bool)
      (missing true "/a" "http://a" 20 ++ [.statement true {}] ++
        missing false "/b" "http://b" 30 ++ [.statement false {}]) := by
  refine ownUrl_of_alone _ ?_
  decide

/-- The second call rewrites the record before the last statement of the first. -/
theorem not_ownUrl_overlap :
    ¬ ∀ acts : List (Act Bool), Machine.Along OwnUrl step {} acts := by
  intro law
  have along := law (missing true "/a" "http://a" 20 ++ missing false "/b" "http://b" 30 ++
    [.statement true {}])
  exact absurd along (by decide)

end MediaThreads

end Upmpdcli
