import Upmpdcli.Cdplugins.Spotify.Spotiproxy

set_option autoImplicit false

/- The length which is announced for a stream, and the bytes which come to its queue. -/
namespace Upmpdcli.SpotiFetch

open CInt (intMax)

/-- The bytes which were put into the queue. -/
def queued (f : SpotiFetch) : Nat := f.queue.flatten.length

/-- The size of the data in a header, which is at its end. -/
def dataSize (header : Bytes) : Nat :=
  (header.drop 40).foldr (fun digit value => digit.toNat + 256 * value) 0

/-- The length which is announced for a stream from an offset. -/
def announced (spp : SpotiProxy) (chans rate : Int) (dry : List Frames) (offset : Nat)
    (old : SpotiFetch) : Option Nat := do
  let (f, _) ← start spp chans rate dry offset old
  let f ← initStream spp f chans rate
  return f.contentlen

/-- The lengths of a transfer which has begun as `f`, and ends as `last`. -/
structure LengthsRight (spp : SpotiProxy) (chans rate : Int) (calls : List Frames) (offset : Nat)
    (old f last : SpotiFetch) : Prop where
  within : ∀ front behind, calls = front ++ behind → ∀ g, sinkAll spp chans rate f front = some g →
    g.queued ≤ g.contentlen
  ended : last.queued ≤ last.contentlen
  padded : last.contentlen - last.totalsent < 5000000 → last.queued = last.contentlen
  header : offset = 0 → ∃ wav rest, last.queue = wav :: rest ∧ dataSize wav + 44 = last.contentlen
  rest : offset ≠ 0 → announced spp chans rate [] 0 old = some (last.contentlen + offset)
  position : 10 * offset < UInt64.size
  sums : ∀ front frames behind, calls = front ++ frames :: behind → ∀ g,
    sinkAll spp chans rate f front = some g → g.totalsent + frames.data.length < UInt64.size

/-- The stream goes through without an overflow, and its lengths are right. -/
def StreamRight (spp : SpotiProxy) (chans rate : Int) (dry calls : List Frames) (offset : Nat)
    (old : SpotiFetch) : Prop :=
  ∃ f g last, start spp chans rate dry offset old = some (f, true) ∧
    sinkAll spp chans rate f calls = some g ∧
      framesink spp chans rate g ⟨[], 0⟩ = some (last, 0) ∧
        LengthsRight spp chans rate calls offset old f last

section Length

variable {msecs rate chans : Nat} {len : Int}

def headerSize (noheader : Bool) : Nat := if noheader then 0 else 44

/-- The bytes of a hundredth of a second. -/
def blockBytes (rate chans : Nat) : Nat := rate / 100 * 2 * chans

/-- The operations for the length stay within the type. -/
structure LengthFits (noheader : Bool) (msecs rate chans : Nat) : Prop where
  hundredths : msecs / 10 ≤ intMax
  samples : rate / 100 ≤ intMax
  mono : msecs / 10 * (rate / 100) ≤ intMax
  wide : msecs / 10 * (rate / 100) * 2 ≤ intMax
  size : msecs / 10 * (rate / 100) * 2 * chans ≤ intMax
  whole : headerSize noheader + msecs / 10 * (rate / 100) * 2 * chans ≤ intMax

theorem streamLength_eq_some (noheader : Bool) :
    streamLength noheader msecs chans rate = some len ↔ LengthFits noheader msecs rate chans ∧
      len = (headerSize noheader + msecs / 10 * (rate / 100) * 2 * chans : Nat) := by
  have head : (if noheader then (0 : Int) else 44) = (headerSize noheader : Nat) := by
    cases noheader <;> rfl
  unfold streamLength
  rw [head]
  simp only [bind, Option.bind_eq_some_iff]
  constructor
  · rintro ⟨hundredths, first, samples, second, product, third, wide, fourth, size, fifth, sum⟩
    obtain ⟨-, hundredths_le, rfl⟩ := CInt.le_of_div (b := 10) first
    obtain ⟨-, samples_le, rfl⟩ := CInt.le_of_div (b := 100) second
    obtain ⟨mono_le, rfl⟩ := CInt.le_of_mul third
    obtain ⟨wide_le, rfl⟩ := CInt.le_of_mul (b := 2) fourth
    obtain ⟨size_le, rfl⟩ := CInt.le_of_mul fifth
    obtain ⟨whole_le, rfl⟩ := CInt.le_of_add sum
    exact ⟨⟨hundredths_le, samples_le, mono_le, wide_le, size_le, whole_le⟩, rfl⟩
  · rintro ⟨fits, rfl⟩
    exact ⟨_, CInt.div_natCast (b := 10) (by omega) fits.hundredths, _,
      CInt.div_natCast (b := 100) (by omega) fits.samples, _, CInt.mul_natCast fits.mono, _,
      CInt.mul_natCast (b := 2) fits.wide, _, CInt.mul_natCast fits.size,
      CInt.add_natCast fits.whole⟩

/-- The whole length fits when its largest products do. -/
theorem LengthFits.of_whole (some_time : 10 ≤ msecs) (time : msecs ≤ intMax)
    (wide : msecs / 10 * (rate / 100) * 2 ≤ intMax)
    (whole : 44 + msecs / 10 * (rate / 100) * 2 * chans ≤ intMax) :
    LengthFits false msecs rate chans := by
  have samples : rate / 100 ≤ msecs / 10 * (rate / 100) :=
    Nat.le_mul_of_pos_left _ (by omega)
  exact ⟨by omega, by omega, by omega, wide, by omega, whole⟩

/-- A shorter stream fits too. -/
theorem LengthFits.shorter {less : Nat} (fits : LengthFits false msecs rate chans)
    (shorter : less ≤ msecs) : LengthFits true less rate chans := by
  have hundredths : less / 10 ≤ msecs / 10 := Nat.div_le_div_right shorter
  have mono := Nat.mul_le_mul_right (rate / 100) hundredths
  have wide := Nat.mul_le_mul_right 2 mono
  have size := Nat.mul_le_mul_right chans wide
  refine ⟨hundredths.trans fits.hundredths, fits.samples, mono.trans fits.mono,
    wide.trans fits.wide, size.trans fits.size, ?_⟩
  rw [headerSize, if_pos rfl, Nat.zero_add]
  exact size.trans fits.size

end Length

section Opening

variable {spp : SpotiProxy} {duration rate chans msecs : Nat} {f g : SpotiFetch}

/-- The stream is initialised with this length. -/
def initialised (f : SpotiFetch) (rate chans durationms len : Nat) : SpotiFetch :=
  { f with
    samplerate := rate
    channels := chans
    streamneedinit := false
    durationms := durationms
    contentlen := len }

theorem initStream_eq_some (track : spp.durationMs = duration) (seek : f.initseekmsecs = msecs)
    (inside : msecs ≤ duration + 300) :
    initStream spp f chans rate = some g ↔
      (duration + 300 ≤ intMax ∧ LengthFits f.noheader (duration + 300 - msecs) rate chans) ∧
        g = f.initialised rate chans (duration + 300)
          (headerSize f.noheader +
            (duration + 300 - msecs) / 10 * (rate / 100) * 2 * chans) := by
  unfold initStream
  simp only [bind, Option.bind_eq_some_iff, track, seek]
  have length_of {len : Nat} (fits : len ≤ intMax) : CInt.toUnsigned UInt64.size len = len :=
    CInt.toUnsigned_natCast (fits.trans_lt (by decide))
  constructor
  · rintro ⟨durationms, first, left, second, len, third, made⟩
    obtain ⟨duration_le, rfl⟩ := CInt.le_of_add (b := 300) first
    have taken := (CInt.sub_natCast inside duration_le).symm.trans second
    cases taken
    obtain ⟨fits, rfl⟩ := (streamLength_eq_some f.noheader).mp third
    rw [length_of fits.whole] at made
    cases made
    exact ⟨⟨duration_le, fits⟩, by rw [initialised, seek]⟩
  · rintro ⟨⟨duration_le, fits⟩, rfl⟩
    refine ⟨_, CInt.add_natCast (b := 300) duration_le, _, CInt.sub_natCast inside duration_le, _,
      (streamLength_eq_some f.noheader).mpr ⟨fits, rfl⟩, ?_⟩
    rw [length_of fits.whole, initialised, seek]
    rfl

theorem dataSize_append {front : Bytes} (length : front.length = 40) {size : Nat}
    (fits : size < UInt32.size) : dataSize (front ++ inttoichar4 size) = size := by
  have rest : (front ++ inttoichar4 size).drop 40 = inttoichar4 size := by
    rw [← length, List.drop_left]
  have bound : size < 4294967296 := fits
  rw [dataSize, rest]
  simp only [inttoichar4, List.foldr_cons, List.foldr_nil, UInt8.toNat_ofNat']
  omega

/-- The operations for the header stay within the type. -/
structure HeaderFits (rate chans : Nat) : Prop where
  frames : rate * chans ≤ intMax
  avgbytpersec : rate * chans * 2 ≤ intMax
  blockalign : chans * 16 ≤ intMax

theorem makewavheader_of_some {databytecnt : Nat} (small : databytecnt < UInt32.size)
    {made : Bytes × Int} (header : makewavheader 100 rate 16 chans databytecnt = some made) :
    HeaderFits rate chans ∧ made.1.length = 44 ∧ made.2 = 44 ∧ dataSize made.1 = databytecnt := by
  unfold makewavheader at header
  rw [if_neg (by decide)] at header
  simp only [bind, Option.bind_eq_some_iff] at header
  obtain ⟨sampsize, first, avgbytpersec, ⟨frames, second, third⟩, blockalign,
    ⟨size, fourth, fifth⟩, made⟩ := header
  cases first
  obtain ⟨frames_le, rfl⟩ := CInt.le_of_mul second
  obtain ⟨avgbytpersec_le, rfl⟩ := CInt.le_of_mul (b := 2) third
  obtain ⟨blockalign_le, rfl⟩ := CInt.le_of_mul (b := 16) fourth
  cases made
  refine ⟨⟨frames_le, avgbytpersec_le, blockalign_le⟩, ?_, rfl, dataSize_append ?_ small⟩
  · rfl
  · rfl

theorem makewavheader_isSome (fits : HeaderFits rate chans) (databytecnt : Nat) :
    (makewavheader 100 rate 16 chans databytecnt).isSome := by
  have sampsize : CInt.div 16 8 = some ((2 : Nat) : Int) := rfl
  have size : CInt.mul chans 16 = some ((chans * 16 : Nat) : Int) :=
    CInt.mul_natCast fits.blockalign
  have align : CInt.div (chans * 16 : Nat) 8 = some ((chans * 16 / 8 : Nat) : Int) :=
    CInt.div_natCast (b := 8) (by omega) ((Nat.div_le_self _ _).trans fits.blockalign)
  unfold makewavheader
  rw [if_neg (by decide), sampsize, CInt.mul_natCast fits.frames, size]
  simp only [bind, Option.bind_some, CInt.mul_natCast fits.avgbytpersec, align]
  rfl

end Opening

section Sending

variable {spp : SpotiProxy} {rate chans len sent : Nat} {f g last : SpotiFetch} {frames : Frames}
  {calls : List Frames}

/-- The stream is open, its length is announced, and so many bytes are sent. -/
structure Sending (len sent : Nat) (f : SpotiFetch) : Prop where
  initialised : f.streamneedinit = false
  plays : f.dryrun = false
  contentlen : f.contentlen = len
  totalsent : f.totalsent = sent
  queued : f.queued = sent
  room : sent ≤ len
  fits : len ≤ intMax

/-- The frames of a call which is not the last one, in 16 bits for each channel. -/
structure Whole (chans : Nat) (frames : Frames) : Prop where
  some_frames : 0 < frames.num
  length : (frames.data.length : Int) = frames.num * chans * 2

theorem Whole.num_eq (whole : Whole chans frames) :
    ∃ n : Nat, frames.num = n ∧ frames.data.length = n * chans * 2 := by
  obtain ⟨n, num⟩ := Int.eq_ofNat_of_zero_le (Int.le_of_lt whole.some_frames)
  have length := whole.length
  rw [num] at length
  exact ⟨n, num, by exact_mod_cast length⟩

def totalLength (calls : List Frames) : Nat := (calls.flatMap Frames.data).length

theorem lt_size_of_le {n : Nat} (fits : n ≤ intMax) : n < UInt64.size :=
  fits.trans_lt (by decide)

theorem queued_databufToQ (f : SpotiFetch) (contents : Bytes) :
    (f.databufToQ contents).queued = f.queued + contents.length := by
  simp [databufToQ, queued]

/-- What is left of an announced length. -/
theorem Sending.resid (sending : Sending len sent f) :
    (f.contentlen + UInt64.size - f.totalsent) % UInt64.size = len - sent := by
  have room := sending.room
  have bound := lt_size_of_le sending.fits
  rw [sending.contentlen, sending.totalsent,
    show len + UInt64.size - sent = len - sent + UInt64.size by omega, Nat.add_mod_right,
    Nat.mod_eq_of_lt (by omega)]

theorem Sending.sendBytes (sending : Sending len sent f) {data : Bytes} {count : Nat}
    (there : count ≤ data.length) (room : sent + count ≤ len) :
    Sending len (sent + count) (f.sendBytes data count) ∧
      f.queue <+: (f.sendBytes data count).queue := by
  have fits := sending.fits
  have bound := lt_size_of_le fits
  have count_eq : CInt.toUnsigned UInt64.size count = count :=
    CInt.toUnsigned_natCast (by omega)
  refine ⟨⟨sending.initialised, sending.plays, sending.contentlen, ?_, ?_, room, fits⟩,
    List.prefix_append _ _⟩
  · show (f.totalsent + CInt.toUnsigned UInt64.size count) % UInt64.size = _
    rw [count_eq, sending.totalsent, Nat.mod_eq_of_lt (by omega)]
  · rw [SpotiFetch.sendBytes, queued_databufToQ, count_eq, List.length_take_of_le there]
    exact congrArg (· + count) sending.queued

/-- A call sends all of its data, or what is left of the announced length. -/
theorem Sending.sendFrames (sending : Sending len sent f) (whole : Whole chans frames)
    (sent_frames : sendFrames f frames chans = some g) :
    frames.data.length ≤ intMax ∧ Sending len (min len (sent + frames.data.length)) g ∧
      f.queue <+: g.queue := by
  obtain ⟨n, num, length⟩ := whole.num_eq
  unfold SpotiFetch.sendFrames at sent_frames
  rw [num] at sent_frames
  simp only [bind, Option.bind_eq_some_iff] at sent_frames
  obtain ⟨count, ⟨samples, first, second⟩, rest⟩ := sent_frames
  obtain ⟨-, rfl⟩ := CInt.le_of_mul first
  obtain ⟨count_le, rfl⟩ := CInt.le_of_mul (b := 2) second
  rw [← length] at count_le rest
  have room := sending.room
  have fits := sending.fits
  have bound : 2 * intMax < UInt64.size := by decide
  rw [CInt.toUnsigned_natCast (lt_size_of_le count_le), sending.totalsent,
    Nat.mod_eq_of_lt (by omega), sending.contentlen] at rest
  refine ⟨count_le, ?_⟩
  split at rest
  · rename_i more
    have left := sending.resid
    rw [sending.contentlen, sending.totalsent] at left
    rw [left, CInt.ofUnsigned_of_le (by omega)] at rest
    rw [min_eq_left (by omega)]
    cases rest
    split
    · rename_i none_left
      have same : sent = len := by omega
      subst same
      exact ⟨sending, List.prefix_rfl⟩
    · have result : Sending len (sent + (len - sent))
          (f.sendBytes frames.data ((len - sent : Nat) : Int)) ∧ _ :=
        sending.sendBytes (by omega) (by omega)
      rwa [Nat.add_sub_cancel' room] at result
  · rename_i inside
    cases rest
    rw [min_eq_right (by omega)]
    exact sending.sendBytes le_rfl (by omega)

theorem sendFrames_isSome (whole : Whole chans frames) (fits : frames.data.length ≤ intMax) :
    (sendFrames f frames chans).isSome := by
  obtain ⟨n, num, length⟩ := whole.num_eq
  have samples : CInt.mul (n : Int) chans = some ((n * chans : Nat) : Int) :=
    CInt.mul_natCast (by omega)
  have count : CInt.mul (n * chans : Nat) 2 = some ((n * chans * 2 : Nat) : Int) :=
    CInt.mul_natCast (b := 2) (length ▸ fits)
  unfold sendFrames
  rw [num, samples, Option.bind_some, count]
  simp only [bind, Option.bind_some]
  split <;> rfl

theorem Sending.openStream_eq (sending : Sending len sent f) (spp : SpotiProxy)
    (chans rate : Int) : openStream spp f chans rate = some f := by
  rw [openStream, sending.initialised, if_neg Bool.false_ne_true]

theorem Sending.framesink_eq (sending : Sending len sent f) (spp : SpotiProxy) (rate : Int)
    (whole : Whole chans frames) :
    framesink spp chans rate f frames =
      (SpotiFetch.sendFrames f frames chans).map fun g => (g, frames.num) := by
  have some_frames := whole.some_frames
  rw [framesink, sending.openStream_eq]
  simp only [bind, Option.bind_some]
  rw [if_neg (by simp [sending.plays]), if_neg (by omega), Option.map_eq_bind]
  rfl

theorem Sending.framesink_end (sending : Sending len sent f) (spp : SpotiProxy)
    (chans rate : Int) :
    framesink spp chans rate f ⟨[], 0⟩ = (endOfStream spp f chans rate).map fun g => (g, 0) := by
  rw [framesink, sending.openStream_eq]
  simp only [bind, Option.bind_some]
  rw [if_neg (by simp [sending.plays]), if_pos trivial, Option.map_eq_bind]
  rfl

theorem sinkAll_cons (spp : SpotiProxy) (chans rate : Int) (f : SpotiFetch) (frames : Frames)
    (calls : List Frames) :
    sinkAll spp chans rate f (frames :: calls) =
      (framesink spp chans rate f frames).bind fun result =>
        sinkAll spp chans rate result.1 calls := by
  rw [sinkAll, List.foldlM_cons, Option.bind_eq_bind, Option.map_eq_bind, Option.bind_assoc]
  rfl

/-- All the data is sent, up to the announced length. -/
theorem Sending.sinkAll (sending : Sending len sent f)
    (whole : ∀ frames ∈ calls, Whole chans frames)
    (ran : sinkAll spp chans rate f calls = some g) :
    (∀ frames ∈ calls, frames.data.length ≤ intMax) ∧
      Sending len (min len (sent + totalLength calls)) g ∧ f.queue <+: g.queue := by
  induction calls generalizing f sent with
  | nil =>
      cases ran
      refine ⟨fun _ member => (nomatch member), ?_, List.prefix_rfl⟩
      rwa [show sent + totalLength [] = sent from rfl, min_eq_right sending.room]
  | cons frames rest ih =>
      rw [List.forall_mem_cons] at whole ⊢
      rw [sinkAll_cons, sending.framesink_eq spp rate whole.1] at ran
      obtain ⟨result, first, later⟩ := Option.bind_eq_some_iff.mp ran
      obtain ⟨g₁, sent_frames, rfl⟩ := Option.map_eq_some_iff.mp first
      obtain ⟨fits, sending₁, grown₁⟩ := sending.sendFrames whole.1 sent_frames
      obtain ⟨all_fit, sending₂, grown₂⟩ := ih sending₁ whole.2 later
      refine ⟨⟨fits, all_fit⟩, ?_, grown₁.trans grown₂⟩
      have total : totalLength (frames :: rest) = frames.data.length + totalLength rest := by
        simp [totalLength]
      rwa [show min len (min len (sent + frames.data.length) + totalLength rest) =
        min len (sent + totalLength (frames :: rest)) by omega] at sending₂

variable (spp rate) in
theorem Sending.sinkAll_isSome (sending : Sending len sent f)
    (whole : ∀ frames ∈ calls, Whole chans frames)
    (fits : ∀ frames ∈ calls, frames.data.length ≤ intMax) :
    (SpotiFetch.sinkAll spp chans rate f calls).isSome := by
  induction calls generalizing f sent with
  | nil => rfl
  | cons frames rest ih =>
      rw [List.forall_mem_cons] at whole fits
      obtain ⟨g, sent_frames⟩ := Option.isSome_iff_exists.mp
        (sendFrames_isSome (f := f) whole.1 fits.1)
      obtain ⟨-, sending', -⟩ := sending.sendFrames whole.1 sent_frames
      rw [sinkAll_cons, sending.framesink_eq spp rate whole.1, sent_frames]
      exact ih sending' whole.2 fits.2

theorem paddingMs_of_some {resid ms : Nat} (padding : paddingMs resid chans rate = some ms) :
    2 * chans * rate ≤ intMax := by
  unfold paddingMs at padding
  simp only [bind, Option.bind_eq_some_iff] at padding
  obtain ⟨size, first, product, second, -⟩ := padding
  obtain ⟨-, rfl⟩ := CInt.le_of_mul (a := 2) first
  exact (CInt.le_of_mul second).1

theorem paddingMs_isSome (fits : 2 * chans * rate ≤ intMax) (fast : 100 ≤ rate)
    (some_chans : 0 < chans) (resid : Nat) : (paddingMs resid chans rate).isSome := by
  have less : 2 * chans ≤ 2 * chans * rate := Nat.le_mul_of_pos_right _ (by omega)
  have size : CInt.mul 2 chans = some ((2 * chans : Nat) : Int) :=
    CInt.mul_natCast (a := 2) (less.trans fits)
  have share_le : 2 * chans * rate / 100 ≤ intMax := (Nat.div_le_self _ _).trans fits
  have share : CInt.div (2 * chans * rate : Nat) 100 =
      some ((2 * chans * rate / 100 : Nat) : Int) :=
    CInt.div_natCast (b := 100) (by omega) share_le
  have fast_enough : 100 ≤ 2 * chans * rate := fast.trans (Nat.le_mul_of_pos_left _ (by omega))
  unfold paddingMs
  rw [size]
  simp only [bind, Option.bind_some, CInt.mul_natCast fits, share]
  rw [CInt.toUnsigned_natCast (lt_size_of_le share_le), if_neg (by omega)]
  rfl

/-- What is missing at the end of the stream is padded, unless it is too much. -/
theorem Sending.endOfStream (sending : Sending len sent f)
    (ended : endOfStream spp f chans rate = some last) :
    last.contentlen = len ∧ last.totalsent = sent ∧ last.queued ≤ len ∧
      (len - sent < 5000000 → last.queued = len) ∧ f.queue <+: last.queue ∧
        (spp.logdeb → 0 < len - sent → len - sent < 5000000 → 2 * chans * rate ≤ intMax) := by
  have room := sending.room
  unfold SpotiFetch.endOfStream at ended
  rw [sending.resid] at ended
  dsimp only at ended
  split at ended
  · rename_i some_padding
    simp only [bind, Option.bind_eq_some_iff] at ended
    obtain ⟨ms, logged, ended⟩ := ended
    unfold logPadding at logged
    cases ended
    have queued : ((f.databufToQ (List.replicate (len - sent) 0)).databufToQ []).queued = len := by
      rw [queued_databufToQ, queued_databufToQ, sending.queued, List.length_replicate,
        List.length_nil]
      omega
    refine ⟨sending.contentlen, sending.totalsent, queued.le, fun _ => queued, ?_, ?_⟩
    · exact (List.prefix_append _ _).trans (List.prefix_append _ _)
    · intro logs _ _
      rw [if_pos logs] at logged
      exact paddingMs_of_some logged
  · rename_i no_padding
    cases ended
    have queued : (f.databufToQ []).queued = sent := by
      rw [queued_databufToQ, sending.queued, List.length_nil, Nat.add_zero]
    refine ⟨sending.contentlen, sending.totalsent, queued.trans_le room, fun small => ?_,
      List.prefix_append _ _, fun _ some_left small => absurd ⟨some_left, small⟩ no_padding⟩
    have none_left : ¬ 0 < len - sent := fun some_left => no_padding ⟨some_left, small⟩
    rw [queued]
    omega

theorem Sending.endOfStream_isSome (sending : Sending len sent f)
    (audible : 0 < len - sent → 100 ≤ rate ∧ 0 < chans)
    (logged : spp.logdeb → 0 < len - sent → len - sent < 5000000 → 2 * chans * rate ≤ intMax) :
    (SpotiFetch.endOfStream spp f chans rate).isSome := by
  unfold SpotiFetch.endOfStream
  rw [sending.resid]
  dsimp only
  split
  · rename_i some_padding
    obtain ⟨some_left, small⟩ := some_padding
    unfold logPadding
    cases logs : spp.logdeb with
    | false => rfl
    | true =>
        obtain ⟨ms, padding⟩ := Option.isSome_iff_exists.mp
          (paddingMs_isSome (logged logs some_left small) (audible some_left).1
            (audible some_left).2 (len - sent))
        rw [if_pos rfl, padding]
        rfl
  · rfl

end Sending

section Start

variable {spp : SpotiProxy} {duration rate chans offset : Nat} {f g last : SpotiFetch}
  {dry calls : List Frames}

theorem initStream_keeps {chans rate : Int} (made : initStream spp f chans rate = some g) :
    g.streamneedinit = false ∧ g.dryrun = f.dryrun ∧ g.samplerate = rate := by
  unfold initStream at made
  simp only [bind, Option.bind_eq_some_iff] at made
  obtain ⟨_, _, _, _, _, _, made⟩ := made
  cases made
  exact ⟨rfl, rfl, rfl⟩

theorem initialised_of_openStream {chans rate : Int}
    (opened : openStream spp f chans rate = some g) : g.streamneedinit = false := by
  unfold openStream at opened
  split at opened
  · obtain ⟨made, first, opened⟩ := Option.bind_eq_some_iff.mp opened
    have ready := (initStream_keeps first).1
    split at opened
    · unfold sendHeader at opened
      obtain ⟨buf, -, opened⟩ := Option.bind_eq_some_iff.mp opened
      cases opened
      exact ready
    · cases opened
      exact ready
  · rename_i ready
    cases opened
    simpa using ready

/-- The first call of the sink opens the stream. -/
theorem framesink_open (spp : SpotiProxy) (chans rate : Int) (f : SpotiFetch) (frames : Frames) :
    framesink spp chans rate f frames =
      (openStream spp f chans rate).bind fun g => framesink spp chans rate g frames := by
  cases opened : openStream spp f chans rate with
  | none =>
      rw [framesink, opened]
      rfl
  | some g =>
      have again : openStream spp g chans rate = some g := by
        rw [openStream, initialised_of_openStream opened, if_neg Bool.false_ne_true]
      rw [framesink, opened, Option.bind_some, framesink, again]

/-- The calls and the last one. -/
def Ends (spp : SpotiProxy) (chans rate : Int) (calls : List Frames) (f last : SpotiFetch) : Prop :=
  ∃ g, sinkAll spp chans rate f calls = some g ∧ framesink spp chans rate g ⟨[], 0⟩ = some (last, 0)

theorem ends_iff_open {chans rate : Int} :
    Ends spp chans rate calls f last ↔
      ∃ g, openStream spp f chans rate = some g ∧ Ends spp chans rate calls g last := by
  cases calls with
  | nil =>
      have only (f : SpotiFetch) : Ends spp chans rate [] f last ↔
          framesink spp chans rate f ⟨[], 0⟩ = some (last, 0) :=
        ⟨fun ⟨_, same, ended⟩ => Option.some.inj same ▸ ended, fun ended => ⟨f, rfl, ended⟩⟩
      simp only [only]
      rw [framesink_open, Option.bind_eq_some_iff]
  | cons frames rest =>
      unfold Ends
      simp only [sinkAll_cons]
      rw [framesink_open, Option.bind_assoc]
      cases openStream spp f chans rate with
      | none => simp
      | some g => simp

/-- A dry run stops where the length is known. -/
theorem sinkAll_dry {chans rate : Int} (runs_dry : f.dryrun = true)
    (fresh : f.streamneedinit = true) (some_dry : dry ≠ []) :
    sinkAll spp chans rate f dry = initStream spp f chans rate := by
  have later : ∀ g, g.dryrun = true → g.streamneedinit = false → ∀ calls,
      sinkAll spp chans rate g calls = some g := by
    intro g runs_dry ready calls
    induction calls with
    | nil => rfl
    | cons frames rest ih =>
        rw [sinkAll_cons, framesink, openStream, ready, if_neg Bool.false_ne_true]
        simp only [bind, Option.bind_some]
        rw [if_pos runs_dry]
        exact ih
  obtain ⟨frames, rest, rfl⟩ := List.exists_cons_of_ne_nil some_dry
  rw [sinkAll_cons, framesink, openStream, fresh, if_pos rfl]
  cases made : initStream spp f chans rate with
  | none => rfl
  | some g =>
      obtain ⟨ready, same, -⟩ := initStream_keeps made
      rw [runs_dry] at same
      simp only [bind, Option.bind_some, same, Bool.true_eq_false, false_and, if_false, pure]
      exact later g same ready rest

/-- The length of the stream without an offset. -/
def wholeLength (duration rate chans : Nat) : Nat :=
  44 + (duration + 300) / 10 * (rate / 100) * 2 * chans

/-- The length of the whole stream fits. -/
structure WholeFits (duration rate chans : Nat) : Prop where
  time : duration + 300 ≤ intMax
  wide : (duration + 300) / 10 * (rate / 100) * 2 ≤ intMax
  whole : wholeLength duration rate chans ≤ intMax

theorem wholeFits_iff : WholeFits duration rate chans ↔
    duration + 300 ≤ intMax ∧ LengthFits false (duration + 300) rate chans :=
  ⟨fun fits => ⟨fits.time, .of_whole (by omega) fits.time fits.wide fits.whole⟩,
    fun fits => ⟨fits.1, fits.2.wide, fits.2.whole⟩⟩

/-- The stream is initialised from its start. -/
theorem initStream_whole (track : spp.durationMs = duration) (start : f.initseekmsecs = 0)
    (header : f.noheader = false) :
    initStream spp f chans rate = some g ↔ WholeFits duration rate chans ∧
      g = f.initialised rate chans (duration + 300) (wholeLength duration rate chans) := by
  have none_left : 0 ≤ duration + 300 := Nat.zero_le _
  rw [wholeFits_iff, initStream_eq_some track start none_left, header, Nat.sub_zero]
  rfl

theorem sendHeader_of_some {len : Nat} (header : 44 ≤ len) (fits : len ≤ intMax)
    (announced : f.contentlen = len) (first : f.totalsent = 0) (none_queued : f.queue = [])
    (sent : sendHeader f chans rate = some g) :
    HeaderFits rate chans ∧ ∃ wav : Bytes, wav.length = 44 ∧ dataSize wav + 44 = len ∧
      g = { f with totalsent := 44, queue := [wav] } := by
  have bound : intMax < UInt32.size := by decide
  have wider : UInt32.size < UInt64.size := by decide
  have databytecnt : (len + UInt64.size - 44) % UInt64.size % UInt32.size = len - 44 := by
    rw [show len + UInt64.size - 44 = len - 44 + UInt64.size by omega, Nat.add_mod_right,
      Nat.mod_eq_of_lt (show len - 44 < UInt64.size by omega), Nat.mod_eq_of_lt (by omega)]
  unfold sendHeader at sent
  rw [announced, databytecnt] at sent
  obtain ⟨⟨wav, cnt⟩, made, sent⟩ := Option.bind_eq_some_iff.mp sent
  obtain ⟨header_fits, length, cnt_eq, size⟩ := makewavheader_of_some (by omega) made
  dsimp only at length cnt_eq size
  have whole : wav.take 44 = wav := by rw [← length, List.take_length]
  have count : CInt.toUnsigned UInt64.size 44 = 44 := rfl
  refine ⟨header_fits, wav, length, by omega, ?_⟩
  rw [cnt_eq] at sent
  dsimp only at sent
  rw [count, first, whole] at sent
  cases sent
  rw [databufToQ, none_queued, announced]
  rfl

theorem sendHeader_isSome (fits : HeaderFits rate chans) : (sendHeader f chans rate).isSome := by
  obtain ⟨made, header⟩ := Option.isSome_iff_exists.mp (makewavheader_isSome fits
    ((f.contentlen + UInt64.size - 44) % UInt64.size % UInt32.size))
  unfold sendHeader
  dsimp only
  rw [header]
  rfl

/-- A stream without an offset is opened by its header. -/
theorem openStream_whole (track : spp.durationMs = duration)
    (opened : openStream spp {} chans rate = some g) :
    (WholeFits duration rate chans ∧ HeaderFits rate chans) ∧
      Sending (wholeLength duration rate chans) 44 g ∧
        ∃ wav, g.queue = [wav] ∧ dataSize wav + 44 = wholeLength duration rate chans := by
  unfold openStream at opened
  rw [if_pos rfl] at opened
  obtain ⟨made, first, opened⟩ := Option.bind_eq_some_iff.mp opened
  obtain ⟨fits, rfl⟩ := (initStream_whole track rfl rfl).mp first
  rw [if_pos ⟨rfl, rfl⟩] at opened
  have header : 44 ≤ wholeLength duration rate chans := Nat.le_add_right _ _
  obtain ⟨header_fits, wav, length, size, rfl⟩ :=
    sendHeader_of_some header fits.whole rfl rfl rfl opened
  refine ⟨⟨fits, header_fits⟩, ⟨rfl, rfl, rfl, rfl, ?_, header, fits.whole⟩, wav, rfl, size⟩
  simp [queued, length]

theorem openStream_whole_isSome (track : spp.durationMs = duration)
    (fits : WholeFits duration rate chans) (header : HeaderFits rate chans) :
    (openStream spp {} chans rate).isSome := by
  have made := (initStream_whole (f := {}) track rfl rfl).mpr ⟨fits, rfl⟩
  unfold openStream
  rw [if_pos rfl, made]
  exact sendHeader_isSome header

end Start

section Seek

variable {spp : SpotiProxy} {duration rate chans offset : Nat} {f g last : SpotiFetch}
  {dry calls : List Frames}

/-- The milliseconds which an offset stands for. -/
def offsetMs (duration rate chans offset : Nat) : Nat :=
  min (10 * offset % UInt64.size / blockBytes rate chans) (duration + 300)

/-- The length of the stream behind an offset. -/
def restLength (duration rate chans offset : Nat) : Nat :=
  (duration + 300 - offsetMs duration rate chans offset) / 10 * (rate / 100) * 2 * chans

theorem blockBytes_pos (fast : 100 ≤ rate) (some_chans : chans ≠ 0) : 0 < blockBytes rate chans :=
  Nat.mul_pos (by omega) (by omega)

theorem mul_blockBytes (n rate chans : Nat) :
    n * (rate / 100) * 2 * chans = n * blockBytes rate chans := by
  simp only [blockBytes, Nat.mul_assoc]

theorem WholeFits.blockBytes_le (fits : WholeFits duration rate chans) :
    blockBytes rate chans ≤ intMax := by
  have size := (wholeFits_iff.mp fits).2.size
  rw [mul_blockBytes] at size
  exact (Nat.le_mul_of_pos_left _ (by omega)).trans size

theorem seekmsecs_eq_some (fits : WholeFits duration rate chans) (some_chans : chans ≠ 0)
    (channels : f.channels = chans) (samplerate : f.samplerate = rate)
    (durationms : f.durationms = (duration + 300 : Nat)) {v : Nat} :
    seekmsecs f offset = some v ↔ 100 ≤ rate ∧ v = offsetMs duration rate chans offset := by
  have block : chans * 2 * (rate / 100) = blockBytes rate chans := by
    rw [blockBytes, Nat.mul_comm, Nat.mul_comm chans, ← Nat.mul_assoc]
  have block_eq : CInt.toUnsigned UInt64.size (blockBytes rate chans) = blockBytes rate chans :=
    CInt.toUnsigned_natCast (lt_size_of_le fits.blockBytes_le)
  have time_eq : CInt.toUnsigned UInt64.size (duration + 300 : Nat) = duration + 300 :=
    CInt.toUnsigned_natCast (lt_size_of_le fits.time)
  unfold seekmsecs
  rw [channels, samplerate, durationms, time_eq]
  simp only [bind, Option.bind_eq_some_iff]
  constructor
  · rintro ⟨size, first, samples, second, product, third, found⟩
    obtain ⟨-, rfl⟩ := CInt.le_of_mul (b := 2) first
    obtain ⟨-, -, rfl⟩ := CInt.le_of_div (b := 100) second
    obtain ⟨-, rfl⟩ := CInt.le_of_mul third
    rw [block, block_eq] at found
    split at found
    · cases found
    · rename_i some_block
      cases found
      refine ⟨?_, rfl⟩
      by_contra slow
      have zero : rate / 100 = 0 := Nat.div_eq_of_lt (by omega)
      rw [blockBytes, zero, Nat.zero_mul] at some_block
      exact some_block rfl
  · rintro ⟨fast, rfl⟩
    have less : chans * 2 ≤ chans * 2 * (rate / 100) := Nat.le_mul_of_pos_right _ (by omega)
    have block_le := fits.blockBytes_le
    refine ⟨_, CInt.mul_natCast (b := 2) (by omega), _,
      CInt.div_natCast (b := 100) (by omega) (wholeFits_iff.mp fits).2.samples, _,
      CInt.mul_natCast (by omega), ?_⟩
    rw [block, block_eq, if_neg (blockBytes_pos fast some_chans).ne']
    rfl

/-- Ten times an offset at the start of a block, in blocks. -/
theorem ten_mul_div {block j : Nat} (pos : 0 < block) :
    10 * (44 + j * block) / block = 440 / block + 10 * j := by
  have sum : 10 * (44 + j * block) = 440 + 10 * j * block := by
    rw [Nat.mul_add, ← Nat.mul_assoc]
  rw [sum, Nat.add_mul_div_right _ _ pos]

/-- The blocks behind the position are the ones which the offset leaves out, when it is at the start
of a block behind the header. -/
theorem rest_add_eq_iff {block time offset : Nat} (pos : 0 < block) :
    (time - min (10 * offset / block) time) / 10 * block + offset = 44 + time / 10 * block ↔
      44 ≤ offset ∧ offset ≤ 44 + time / 10 * block ∧ block ∣ offset - 44 ∧
        (440 / block ≤ time % 10 ∨ offset = 44 + time / 10 * block) := by
  constructor
  · intro same
    have less : (time - min (10 * offset / block) time) / 10 ≤ time / 10 :=
      Nat.div_le_div_right (Nat.sub_le _ _)
    obtain ⟨j, split⟩ := Nat.exists_eq_add_of_le less
    have offset_eq : offset = 44 + j * block := by
      rw [split, Nat.add_mul] at same
      omega
    rw [offset_eq, ten_mul_div pos] at split
    have j_le : j ≤ time / 10 := by omega
    have j_blocks : j * block ≤ time / 10 * block := Nat.mul_le_mul_right block j_le
    refine ⟨by omega, by omega, ⟨j, by rw [Nat.mul_comm]; omega⟩, ?_⟩
    by_cases all : j = time / 10
    · exact .inr (all ▸ offset_eq)
    · exact .inl (by omega)
  · rintro ⟨header, inside, ⟨j, blocks⟩, position⟩
    rw [Nat.mul_comm] at blocks
    obtain rfl : offset = 44 + j * block := by omega
    have j_le : j ≤ time / 10 := Nat.le_of_mul_le_mul_right (by omega) pos
    rw [ten_mul_div pos]
    have counts : (time - min (440 / block + 10 * j) time) / 10 + j = time / 10 := by
      rcases position with early | last
      · generalize 440 / block = lost at early ⊢
        omega
      · have all : j = time / 10 := Nat.eq_of_mul_eq_mul_right pos (by omega)
        generalize 440 / block = lost
        omega
    rw [← counts, Nat.add_mul]
    omega

/-- The offset is at the start of a hundredth of a second behind the header, and inside of the
stream. The position is rounded down, which can lose one where these are short. -/
structure Aligned (duration rate chans offset : Nat) : Prop where
  fast : 100 ≤ rate
  header : 44 ≤ offset
  inside : offset ≤ wholeLength duration rate chans
  blocks : blockBytes rate chans ∣ offset - 44
  position : 440 / blockBytes rate chans ≤ (duration + 300) % 10 ∨
    offset = wholeLength duration rate chans

theorem aligned_iff (fast : 100 ≤ rate) (some_chans : chans ≠ 0)
    (small : 10 * offset < UInt64.size) :
    Aligned duration rate chans offset ↔
      restLength duration rate chans offset + offset = wholeLength duration rate chans := by
  rw [restLength, offsetMs, Nat.mod_eq_of_lt small, mul_blockBytes, wholeLength, mul_blockBytes,
    rest_add_eq_iff (blockBytes_pos fast some_chans)]
  constructor
  · intro aligned
    have inside := aligned.inside
    have position := aligned.position
    rw [wholeLength, mul_blockBytes] at inside position
    exact ⟨aligned.header, inside, aligned.blocks, position⟩
  · rintro ⟨header, inside, blocks, position⟩
    rw [← mul_blockBytes, ← wholeLength] at inside position
    exact ⟨fast, header, inside, blocks, position⟩

/-- What a dry run knows. -/
def measured (duration rate chans : Nat) : SpotiFetch where
  dryrun := true
  samplerate := rate
  channels := chans
  durationms := (duration + 300 : Nat)
  contentlen := wholeLength duration rate chans

theorem dodryrun_eq_some (track : spp.durationMs = duration) (plays : spp.startPlay 0 = true)
    (some_dry : dry ≠ []) (some_rate : rate ≠ 0) :
    dodryrun spp chans rate dry {} = some g ↔
      WholeFits duration rate chans ∧ g = measured duration rate chans := by
  have dry_run : sinkAll spp chans rate { dryrun := true } dry =
      initStream spp { dryrun := true } chans rate := sinkAll_dry rfl rfl some_dry
  have known : (rate : Int) ≠ 0 := by omega
  unfold dodryrun
  rw [if_neg (by simp [plays])]
  dsimp only
  rw [dry_run]
  simp only [bind, Option.bind_eq_some_iff]
  constructor
  · rintro ⟨made, first, stops⟩
    obtain ⟨fits, rfl⟩ := (initStream_whole track rfl rfl).mp first
    rw [initialised, if_neg known] at stops
    cases stops
    exact ⟨fits, rfl⟩
  · rintro ⟨fits, rfl⟩
    refine ⟨_, (initStream_whole track rfl rfl).mpr ⟨fits, rfl⟩, ?_⟩
    rw [initialised, if_neg known]
    rfl

/-- A stream which has been started at an offset. -/
def seeking (duration rate chans offset : Nat) : SpotiFetch where
  initseekmsecs := offsetMs duration rate chans offset
  noheader := true
  channels := chans
  durationms := (duration + 300 : Nat)
  contentlen := wholeLength duration rate chans

theorem offsetMs_le (duration rate chans offset : Nat) :
    offsetMs duration rate chans offset ≤ duration + 300 := Nat.min_le_right _ _

/-- A start at an offset goes through a dry run, which tells the rate. -/
theorem start_offset (track : spp.durationMs = duration) (plays : ∀ ms, spp.startPlay ms = true)
    (some_offset : offset ≠ 0) (some_dry : dry ≠ []) (some_rate : rate ≠ 0)
    (some_chans : chans ≠ 0) (old : SpotiFetch) :
    start spp chans rate dry offset old = some (f, true) ↔
      (WholeFits duration rate chans ∧ 100 ≤ rate) ∧ f = seeking duration rate chans offset := by
  have known : ¬ ((rate : Int) = 0 ∨ (chans : Int) = 0) := by omega
  have seek_int (fits : WholeFits duration rate chans) :
      CInt.ofUnsigned (offsetMs duration rate chans offset) =
        offsetMs duration rate chans offset :=
    CInt.ofUnsigned_of_le ((offsetMs_le duration rate chans offset).trans fits.time)
  have seek (fits : WholeFits duration rate chans) {v : Nat} :
      seekmsecs (measured duration rate chans) offset = some v ↔
        100 ≤ rate ∧ v = offsetMs duration rate chans offset :=
    seekmsecs_eq_some fits some_chans rfl rfl rfl
  unfold start reset
  rw [if_neg some_offset]
  simp only [bind, Option.bind_eq_some_iff, dodryrun_eq_some track (plays 0) some_dry some_rate,
    plays]
  constructor
  · rintro ⟨ended, ⟨fits, rfl⟩, started⟩
    rw [measured, if_neg known] at started
    obtain ⟨v, found, started⟩ := Option.bind_eq_some_iff.mp started
    obtain ⟨fast, rfl⟩ := (seek fits).mp found
    rw [seek_int fits] at started
    cases started
    exact ⟨⟨fits, fast⟩, rfl⟩
  · rintro ⟨⟨fits, fast⟩, rfl⟩
    refine ⟨_, ⟨fits, rfl⟩, ?_⟩
    rw [measured, if_neg known]
    refine Option.bind_eq_some_iff.mpr ⟨_, (seek fits).mpr ⟨fast, rfl⟩, ?_⟩
    rw [seek_int fits]
    rfl

variable (offset) in
theorem openStream_seeking (track : spp.durationMs = duration)
    (fits : WholeFits duration rate chans) :
    ∃ g, openStream spp (seeking duration rate chans offset) chans rate = some g ∧
      Sending (restLength duration rate chans offset) 0 g := by
  have length := (wholeFits_iff.mp fits).2.shorter
    (Nat.sub_le (duration + 300) (offsetMs duration rate chans offset))
  have made := (initStream_eq_some (f := seeking duration rate chans offset) track rfl
    (offsetMs_le duration rate chans offset)).mpr ⟨⟨fits.time, length⟩, rfl⟩
  have len : headerSize true + restLength duration rate chans offset =
      restLength duration rate chans offset := Nat.zero_add _
  have opened : openStream spp (seeking duration rate chans offset) chans rate =
      some ((seeking duration rate chans offset).initialised rate chans (duration + 300)
        (headerSize true + restLength duration rate chans offset)) := by
    have fresh : (seeking duration rate chans offset).streamneedinit = true := rfl
    unfold openStream
    rw [if_pos fresh, made]
    rfl
  exact ⟨_, opened, rfl, rfl, len, rfl, rfl, Nat.zero_le _, len ▸ length.whole⟩

theorem announced_whole (track : spp.durationMs = duration) (old : SpotiFetch) {n : Nat} :
    announced spp chans rate [] 0 old = some n ↔
      WholeFits duration rate chans ∧ n = wholeLength duration rate chans := by
  unfold announced start
  rw [if_pos rfl]
  simp only [bind, Option.bind_some, Option.bind_eq_some_iff]
  constructor
  · rintro ⟨g, made, found⟩
    obtain ⟨fits, rfl⟩ := (initStream_whole track rfl rfl).mp made
    cases found
    exact ⟨fits, rfl⟩
  · rintro ⟨fits, rfl⟩
    exact ⟨_, (initStream_whole track rfl rfl).mpr ⟨fits, rfl⟩, rfl⟩

end Seek

section Run

variable {spp : SpotiProxy} {rate chans len sent : Nat} {f g last : SpotiFetch}
  {calls : List Frames}

/-- An open stream goes through when no call is too large. -/
theorem Sending.ends_iff (sending : Sending len sent f)
    (whole : ∀ frames ∈ calls, Whole chans frames)
    (audible : sent < len → 100 ≤ rate ∧ 0 < chans) :
    (∃ last, Ends spp chans rate calls f last) ↔
      (∀ frames ∈ calls, frames.data.length ≤ intMax) ∧
        (spp.logdeb → 0 < len - sent - totalLength calls →
          len - sent - totalLength calls < 5000000 → 2 * chans * rate ≤ intMax) := by
  have left : len - min len (sent + totalLength calls) = len - sent - totalLength calls := by omega
  constructor
  · rintro ⟨last, g, ran, ended⟩
    obtain ⟨fits, sending', -⟩ := sending.sinkAll whole ran
    rw [sending'.framesink_end, Option.map_eq_some_iff] at ended
    obtain ⟨last', ended, -⟩ := ended
    have logged := (sending'.endOfStream ended).2.2.2.2.2
    rw [left] at logged
    exact ⟨fits, logged⟩
  · rintro ⟨fits, logged⟩
    obtain ⟨g, ran⟩ := Option.isSome_iff_exists.mp (sending.sinkAll_isSome spp rate whole fits)
    obtain ⟨-, sending', -⟩ := sending.sinkAll whole ran
    rw [← left] at logged
    obtain ⟨last, ended⟩ := Option.isSome_iff_exists.mp
      (sending'.endOfStream_isSome (fun some_left => audible (by omega)) logged)
    exact ⟨last, g, ran, by rw [sending'.framesink_end, ended]; rfl⟩

theorem Sending.of_ends (sending : Sending len sent f)
    (whole : ∀ frames ∈ calls, Whole chans frames) (ends : Ends spp chans rate calls f last) :
    last.contentlen = len ∧ last.queued ≤ len ∧
      (len - last.totalsent < 5000000 → last.queued = len) ∧ f.queue <+: last.queue := by
  obtain ⟨g, ran, ended⟩ := ends
  obtain ⟨-, sending', grown⟩ := sending.sinkAll whole ran
  rw [sending'.framesink_end, Option.map_eq_some_iff] at ended
  obtain ⟨last', ended, same⟩ := ended
  cases same
  obtain ⟨contentlen, totalsent, queued, padded, more, -⟩ := sending'.endOfStream ended
  rw [totalsent]
  exact ⟨contentlen, queued, padded, grown.trans more⟩

/-- At each call of a stream which is opened by the first one, what is sent is within the length. -/
theorem Sending.of_front (sending : Sending len sent g)
    (opened : openStream spp f chans rate = some g) (none_sent : f.totalsent = 0 ∧ f.queue = [])
    (whole : ∀ frames ∈ calls, Whole chans frames) {h : SpotiFetch}
    (ran : SpotiFetch.sinkAll spp chans rate f calls = some h) :
    h.totalsent ≤ len ∧ h.queued ≤ h.contentlen := by
  cases calls with
  | nil =>
      cases ran
      have none_queued : f.queued = 0 := by
        rw [SpotiFetch.queued, none_sent.2]
        rfl
      rw [none_sent.1, none_queued]
      exact ⟨Nat.zero_le _, Nat.zero_le _⟩
  | cons frames rest =>
      rw [sinkAll_cons, framesink_open, opened, Option.bind_some, ← sinkAll_cons] at ran
      obtain ⟨-, sending', -⟩ := sending.sinkAll whole ran
      rw [sending'.totalsent, sending'.queued, sending'.contentlen]
      exact ⟨sending'.room, sending'.room⟩

end Run

section Stream

variable {spp : SpotiProxy} {duration rate chans offset : Nat} {dry calls : List Frames}

/-- When the stream goes through and its lengths are right: its length fits into an `int`, and so do
those of the calls and what is in the header. An offset has to be that of a hundredth of a second.
The last one is the product which the log needs for a padding. -/
structure StreamFits (duration rate chans offset : Nat) (calls : List Frames) (logdeb : Bool) :
    Prop where
  whole : WholeFits duration rate chans
  each : ∀ frames ∈ calls, frames.data.length ≤ intMax
  header : offset = 0 → HeaderFits rate chans
  aligned : offset ≠ 0 → Aligned duration rate chans offset
  logged : offset ≠ 0 → logdeb → 0 < wholeLength duration rate chans - offset - totalLength calls →
    wholeLength duration rate chans - offset - totalLength calls < 5000000 →
      2 * chans * rate ≤ intMax

/-- Something to send needs a rate and channels. -/
theorem audible_of_pos {n : Nat} (some_length : 0 < n * (rate / 100) * 2 * chans) :
    100 ≤ rate ∧ 0 < chans := by
  constructor
  · by_contra slow
    rw [Nat.div_eq_of_lt (by omega), Nat.mul_zero, Nat.zero_mul] at some_length
    exact Nat.lt_irrefl 0 some_length
  · refine Nat.pos_of_ne_zero fun none => ?_
    rw [none, Nat.mul_zero] at some_length
    exact Nat.lt_irrefl 0 some_length

/-- The lengths of a stream which is opened by its first call and goes through. -/
theorem Sending.lengthsRight {len sent : Nat} {old f g last : SpotiFetch}
    (sending : Sending len sent g) (opened : openStream spp f chans rate = some g)
    (none_sent : f.totalsent = 0 ∧ f.queue = []) (whole : ∀ frames ∈ calls, Whole chans frames)
    (each : ∀ frames ∈ calls, frames.data.length ≤ intMax)
    (ends : Ends spp chans rate calls g last)
    (header : offset = 0 → ∃ wav rest, last.queue = wav :: rest ∧ dataSize wav + 44 = len)
    (rest : offset ≠ 0 → announced spp chans rate [] 0 old = some (len + offset))
    (position : 10 * offset < UInt64.size) :
    LengthsRight spp chans rate calls offset old f last := by
  obtain ⟨contentlen, queued, padded, -⟩ := sending.of_ends whole ends
  have front_whole {front behind : List Frames} (split : calls = front ++ behind) :
      ∀ frames ∈ front, Whole chans frames := fun frames member =>
    whole frames (split ▸ List.mem_append_left _ member)
  constructor
  · intro front behind split g ran
    exact (sending.of_front opened none_sent (front_whole split) ran).2
  · exact contentlen ▸ queued
  · exact contentlen ▸ padded
  · exact contentlen ▸ header
  · exact contentlen ▸ rest
  · exact position
  · intro front frames behind split g ran
    have sent_le := (sending.of_front opened none_sent (front_whole split) ran).1
    have data_le := each frames (split ▸ List.mem_append_right _ List.mem_cons_self)
    have len_le := sending.fits
    have bound : intMax + intMax < UInt64.size := by decide
    omega

theorem streamRight_zero (track : spp.durationMs = duration) (plays : ∀ ms, spp.startPlay ms = true)
    (whole : ∀ frames ∈ calls, Whole chans frames) (old : SpotiFetch) :
    StreamRight spp chans rate dry calls 0 old ↔
      StreamFits duration rate chans 0 calls spp.logdeb := by
  have started : start spp chans rate dry 0 old = some ({}, true) := by
    rw [start, if_pos rfl, plays]
    rfl
  have audible : 44 < wholeLength duration rate chans → 100 ≤ rate ∧ 0 < chans := by
    intro some_length
    unfold wholeLength at some_length
    exact audible_of_pos (Nat.lt_add_right_iff_pos.mp some_length)
  constructor
  · rintro ⟨f, g, last, start_eq, ran, ended, -⟩
    rw [started] at start_eq
    cases start_eq
    obtain ⟨h, opened, ends⟩ := ends_iff_open.mp ⟨g, ran, ended⟩
    obtain ⟨⟨fits, header⟩, sending, -⟩ := openStream_whole track opened
    obtain ⟨each, -⟩ := (sending.ends_iff whole audible).mp ⟨last, ends⟩
    exact ⟨fits, each, fun _ => header, absurd rfl, absurd rfl⟩
  · intro fits
    have header := fits.header rfl
    obtain ⟨h, opened⟩ :=
      Option.isSome_iff_exists.mp (openStream_whole_isSome track fits.whole header)
    obtain ⟨-, sending, wav, queue, size⟩ := openStream_whole track opened
    have product : 2 * chans * rate ≤ intMax := by
      have avgbytpersec := header.avgbytpersec
      rwa [Nat.mul_comm, Nat.mul_comm rate, ← Nat.mul_assoc] at avgbytpersec
    obtain ⟨last, ends⟩ :=
      (sending.ends_iff whole audible).mpr ⟨fits.each, fun _ _ _ => product⟩
    obtain ⟨rest, grown⟩ := (sending.of_ends whole ends).2.2.2
    obtain ⟨g, ran, ended⟩ := ends_iff_open.mpr ⟨h, opened, ends⟩
    refine ⟨{}, g, last, started, ran, ended, ?_⟩
    exact sending.lengthsRight opened ⟨rfl, rfl⟩ whole fits.each ends
      (fun _ => ⟨wav, rest, by rw [← grown, queue]; rfl, size⟩) (absurd rfl) (by decide)

theorem streamRight_offset (track : spp.durationMs = duration)
    (plays : ∀ ms, spp.startPlay ms = true) (some_offset : offset ≠ 0) (some_dry : dry ≠ [])
    (some_rate : rate ≠ 0) (some_chans : chans ≠ 0)
    (whole : ∀ frames ∈ calls, Whole chans frames) (old : SpotiFetch) :
    StreamRight spp chans rate dry calls offset old ↔
      StreamFits duration rate chans offset calls spp.logdeb := by
  have audible : 0 < restLength duration rate chans offset → 100 ≤ rate ∧ 0 < chans :=
    audible_of_pos
  constructor
  · rintro ⟨f, g, last, start_eq, ran, ended, lengths⟩
    obtain ⟨⟨fits, fast⟩, rfl⟩ :=
      (start_offset track plays some_offset some_dry some_rate some_chans old).mp start_eq
    obtain ⟨h, opened, sending⟩ := openStream_seeking offset track fits
    obtain ⟨h', opened', ends⟩ := ends_iff_open.mp ⟨g, ran, ended⟩
    cases opened.symm.trans opened'
    obtain ⟨each, logged⟩ := (sending.ends_iff whole audible).mp ⟨last, ends⟩
    have announced := (announced_whole track old).mp (lengths.rest some_offset)
    rw [(sending.of_ends whole ends).1] at announced
    have left : wholeLength duration rate chans - offset =
        restLength duration rate chans offset := by
      have same := announced.2
      omega
    rw [Nat.sub_zero, ← left] at logged
    refine ⟨fits, each, fun zero => absurd zero some_offset, fun _ => ?_, fun _ => logged⟩
    exact (aligned_iff fast some_chans lengths.position).mpr announced.2
  · intro fits
    have aligned := fits.aligned some_offset
    have inside := aligned.inside.trans fits.whole.whole
    have position : 10 * offset < UInt64.size := by
      have bound : 10 * intMax < UInt64.size := by decide
      omega
    have same := (aligned_iff aligned.fast some_chans position).mp aligned
    have start_eq := (start_offset track plays some_offset some_dry some_rate some_chans old).mpr
      ⟨⟨fits.whole, aligned.fast⟩, rfl⟩
    obtain ⟨h, opened, sending⟩ := openStream_seeking offset track fits.whole
    have logged := fits.logged some_offset
    rw [show wholeLength duration rate chans - offset =
      restLength duration rate chans offset - 0 by omega] at logged
    obtain ⟨last, ends⟩ := (sending.ends_iff whole audible).mpr ⟨fits.each, logged⟩
    obtain ⟨g, ran, ended⟩ := ends_iff_open.mpr ⟨h, opened, ends⟩
    refine ⟨_, g, last, start_eq, ran, ended, ?_⟩
    exact sending.lengthsRight opened ⟨rfl, rfl⟩ whole fits.each ends
      (fun zero => absurd zero some_offset)
      (fun _ => (announced_whole track old).mpr ⟨fits.whole, same⟩) position

/-- A stream which is started goes through with the right lengths exactly when it fits. -/
theorem streamRight_iff (track : spp.durationMs = duration)
    (plays : ∀ ms, spp.startPlay ms = true)
    (accepted : offset ≠ 0 → rate ≠ 0 ∧ chans ≠ 0 ∧ dry ≠ [])
    (whole : ∀ frames ∈ calls, Whole chans frames) (old : SpotiFetch) :
    StreamRight spp chans rate dry calls offset old ↔
      StreamFits duration rate chans offset calls spp.logdeb := by
  by_cases start_offset : offset = 0
  · subst start_offset
    exact streamRight_zero track plays whole old
  · obtain ⟨some_rate, some_chans, some_dry⟩ := accepted start_offset
    exact streamRight_offset track plays start_offset some_dry some_rate some_chans whole old

/-- Three seconds in stereo, from behind the header. -/
def threeSeconds : SpotiProxy where
  durationMs := 3000
  logdeb := true

theorem streamRight_threeSeconds :
    StreamRight threeSeconds (2 : Nat) (44100 : Nat) [⟨[1, 2, 3, 4], 1⟩]
      [⟨[1, 2, 3, 4], 1⟩, ⟨[5, 6, 7, 8, 9, 10, 11, 12], 2⟩] 44 {} := by
  have whole : ∀ frames ∈ ([⟨[1, 2, 3, 4], 1⟩, ⟨[5, 6, 7, 8, 9, 10, 11, 12], 2⟩] : List Frames),
      Whole 2 frames := by
    intro frames member
    rcases List.mem_cons.mp member with rfl | member
    · exact ⟨by decide, by decide⟩
    · rw [List.mem_singleton.mp member]
      exact ⟨by decide, by decide⟩
  have fits : StreamFits 3000 44100 2 44
      [⟨[1, 2, 3, 4], 1⟩, ⟨[5, 6, 7, 8, 9, 10, 11, 12], 2⟩] true := by
    constructor
    · exact ⟨by decide, by decide, by decide⟩
    · simp [intMax]
    · exact nofun
    · exact fun _ => ⟨by decide, by decide, by decide, by decide, by decide⟩
    · exact fun _ _ _ _ => by decide
  exact (streamRight_iff rfl (fun _ => rfl) (fun _ => by simp) whole {}).mpr fits

/-- An offset of one hundredth of a second counts the header too: the announced length is too
short by it. -/
theorem not_streamRight_hundredth : ¬ ∀ (spp : SpotiProxy) (duration rate chans offset : Nat)
    (dry calls : List Frames) (old : SpotiFetch), spp.durationMs = duration →
      (∀ ms, spp.startPlay ms = true) → (offset ≠ 0 → rate ≠ 0 ∧ chans ≠ 0 ∧ dry ≠ []) →
        (∀ frames ∈ calls, Whole chans frames) →
          StreamRight spp chans rate dry calls offset old := by
  intro claim
  have whole : ∀ frames ∈ ([] : List Frames), Whole 2 frames := fun _ member => nomatch member
  have right := claim threeSeconds 3000 44100 2 1764 [⟨[1, 2, 3, 4], 1⟩] [] {} rfl (fun _ => rfl)
    (fun _ => by simp) whole
  have fits := (streamRight_offset rfl (fun _ => rfl) (by decide) (by simp) (by decide) (by decide)
    whole {}).mp right
  have blocks := (fits.aligned (by decide)).blocks
  exact absurd blocks (by decide)

end Stream

end Upmpdcli.SpotiFetch
