import Mathlib.Data.List.Basic

set_option autoImplicit false

namespace Upmpdcli

/-- `ABuffer`. `data` is the useful part `buf[0, bytes)` of the allocated block; the
rest of the block is never read before `memcpy` overwrites it. -/
structure ABuffer where
  allocbytes : Nat
  data : List UInt8
  curoffs : Nat
  fits : data.length ≤ allocbytes
  within : curoffs ≤ data.length
deriving DecidableEq

namespace ABuffer

/-- `ABuffer(size_t bufsize)`. -/
def alloc (bufsize : Nat) : ABuffer := ⟨bufsize, [], 0, Nat.zero_le _, Nat.le_refl _⟩

abbrev bytes (buf : ABuffer) : Nat := buf.data.length

/-- What the consumer has not copied yet. -/
def unread (buf : ABuffer) : List UInt8 := buf.data.drop buf.curoffs

/-- `memcpy(buf->buf, contents, bcnt); buf->bytes = bcnt; buf->curoffs = 0`. -/
def store (buf : ABuffer) (contents : List UInt8) (room : contents.length ≤ buf.allocbytes) :
    ABuffer :=
  ⟨buf.allocbytes, contents, 0, room, Nat.zero_le _⟩

/-- `append`, with `reserve(2*(cnt+bytes))`. -/
def append (buf : ABuffer) (contents : List UInt8) : ABuffer :=
  ⟨max buf.allocbytes (2 * (contents.length + buf.bytes)), buf.data ++ contents, buf.curoffs, by
    simp only [bytes, List.length_append]
    omega, by
    have within := buf.within
    simp only [List.length_append]
    omega⟩

/-- `buf.bytes = 0`, for a buffer which nobody reads through `curoffs`. -/
def clear (buf : ABuffer) : ABuffer := ⟨buf.allocbytes, [], 0, Nat.zero_le _, Nat.le_refl _⟩

/-- A big enough recycled buffer is filled again, else a new one is allocated. -/
def fill (spare : Option ABuffer) (contents : List UInt8) : ABuffer :=
  match spare with
  | some buf =>
      if room : contents.length ≤ buf.allocbytes then buf.store contents room
      else (alloc (max 4096 contents.length)).store contents (Nat.le_max_right _ _)
  | none => (alloc (max 4096 contents.length)).store contents (Nat.le_max_right _ _)

/-- `tocopy = MIN(room, bytes - curoffs)`. -/
def tocopy (buf : ABuffer) (room : Nat) : Nat := min room (buf.bytes - buf.curoffs)

/-- `curoffs += tocopy`. -/
def advance (buf : ABuffer) (room : Nat) : ABuffer :=
  ⟨buf.allocbytes, buf.data, buf.curoffs + buf.tocopy room, buf.fits, by
    have within := buf.within
    simp only [tocopy, bytes]
    omega⟩

@[simp] theorem bytes_alloc (bufsize : Nat) : (alloc bufsize).bytes = 0 := rfl

@[simp] theorem unread_alloc (bufsize : Nat) : (alloc bufsize).unread = [] := rfl

@[simp] theorem unread_store (buf : ABuffer) (contents : List UInt8)
    (room : contents.length ≤ buf.allocbytes) : (buf.store contents room).unread = contents := rfl

@[simp] theorem bytes_fill (spare : Option ABuffer) (contents : List UInt8) :
    (fill spare contents).bytes = contents.length := by
  unfold fill
  split
  · split <;> rfl
  · rfl

@[simp] theorem unread_fill (spare : Option ABuffer) (contents : List UInt8) :
    (fill spare contents).unread = contents := by
  unfold fill
  split
  · split <;> rfl
  · rfl

/-- Copying splits what is unread between the output and the buffer. -/
theorem take_append_unread_advance (buf : ABuffer) (room : Nat) :
    buf.unread.take (buf.tocopy room) ++ (buf.advance room).unread = buf.unread := by
  have rest : (buf.advance room).unread = buf.unread.drop (buf.tocopy room) := by
    simp only [unread, advance, List.drop_drop]
  rw [rest, List.take_append_drop]

end ABuffer

/-- The state of a `BufXChange<T>` meeting point, without its waiting threads: a call
that waits is one whose blocking test below holds. -/
structure BufXChange (T : Type) where
  high : Nat := 0
  maxrecycled : Nat := 4
  ok : Bool := true
  queue : List T := []
  rqueue : List T := []
deriving DecidableEq

namespace BufXChange

variable {T : Type}

/-- `put` waits while there are already too many items; `0` means no limit. -/
def putWaits (q : BufXChange T) : Bool := q.ok && 0 < q.high && q.high ≤ q.queue.length

def put (q : BufXChange T) (t : T) (flushprevious : Bool := false) : Option (BufXChange T) :=
  if q.ok then
    some { q with queue := (if flushprevious then [] else q.queue) ++ [t] }
  else none

def untake (q : BufXChange T) (t : T) : Option (BufXChange T) :=
  if q.ok then some { q with queue := t :: q.queue } else none

def takeRecycled (q : BufXChange T) : Option (T × BufXChange T) :=
  if q.ok then
    match q.rqueue with
    | [] => none
    | t :: rest => some (t, { q with rqueue := rest })
  else none

/-- `waitIdle` waits while this is false. -/
def idle (q : BufXChange T) : Bool := !q.ok || q.queue.isEmpty

def setTerminate (q : BufXChange T) : BufXChange T := { q with ok := false }

/-- `take` waits, until its time-out if there is one, while this holds. -/
def takeWaits (q : BufXChange T) : Bool := q.ok && q.queue.isEmpty

/-- `take` once it does not wait. -/
def take (q : BufXChange T) : Option (T × BufXChange T) :=
  if q.ok then
    match q.queue with
    | [] => none
    | t :: rest => some (t, { q with queue := rest })
  else none

/-- The `while` of `recycle_nolock` drops the oldest ones until there is room for `t`. -/
def recycle (q : BufXChange T) (t : T) : BufXChange T :=
  { q with rqueue := q.rqueue.drop (q.rqueue.length + 1 - q.maxrecycled) ++ [t] }

def reset (q : BufXChange T) : BufXChange T :=
  { q.queue.foldl recycle q with queue := [], ok := true }

@[simp] theorem recycle_queue (q : BufXChange T) (t : T) : (q.recycle t).queue = q.queue := rfl

@[simp] theorem recycle_ok (q : BufXChange T) (t : T) : (q.recycle t).ok = q.ok := rfl

@[simp] theorem setTerminate_queue (q : BufXChange T) : q.setTerminate.queue = q.queue := rfl

@[simp] theorem setTerminate_ok (q : BufXChange T) : q.setTerminate.ok = false := rfl

@[simp] theorem reset_queue (q : BufXChange T) : q.reset.queue = [] := rfl

@[simp] theorem reset_ok (q : BufXChange T) : q.reset.ok = true := rfl

theorem untake_eq_some_iff (q q' : BufXChange T) (t : T) :
    q.untake t = some q' ↔ q.ok = true ∧ q' = { q with queue := t :: q.queue } := by
  cases alive : q.ok <;> simp [untake, alive, eq_comm]

theorem take_eq_some_iff (q q' : BufXChange T) (t : T) :
    q.take = some (t, q') ↔
      q.ok = true ∧ ∃ rest, q.queue = t :: rest ∧ q' = { q with queue := rest } := by
  cases alive : q.ok with
  | false => simp [take, alive]
  | true =>
      cases held : q.queue with
      | nil => simp [take, alive, held]
      | cons first rest =>
          simp only [take, alive, held, ↓reduceIte, Option.some.injEq, Prod.mk.injEq, List.cons.injEq,
            true_and]
          constructor
          · rintro ⟨rfl, rfl⟩
            exact ⟨rest, ⟨rfl, rfl⟩, rfl⟩
          · rintro ⟨_, ⟨rfl, rfl⟩, rfl⟩
            exact ⟨rfl, rfl⟩

theorem takeRecycled_eq (q q' : BufXChange T) (t : T) (found : q.takeRecycled = some (t, q')) :
    ∃ rqueue, q' = { q with rqueue := rqueue } := by
  cases alive : q.ok with
  | false => simp [takeRecycled, alive] at found
  | true =>
      cases held : q.rqueue with
      | nil => simp [takeRecycled, alive, held] at found
      | cons first rest =>
          simp only [takeRecycled, alive, held, ↓reduceIte, Option.some.injEq, Prod.mk.injEq] at found
          exact ⟨rest, found.2.symm⟩

end BufXChange

end Upmpdcli
