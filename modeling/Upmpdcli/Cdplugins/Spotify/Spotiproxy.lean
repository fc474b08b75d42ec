import Upmpdcli.Bytes
import Upmpdcli.Lib.CInt

set_option autoImplicit false

/- The stream which is made of the samples of a Spotify track. -/
namespace Upmpdcli

/-- What the fetcher asks of the proxy: the duration of the track, and whether it starts to play at
a position. The other field says whether the debug messages are written. -/
structure SpotiProxy where
  durationMs : Int
  startPlay : (seekmsecs : Int) → Bool := fun _ => true
  logdeb : Bool := false

/-- The frames of a call of the sink. -/
structure Frames where
  data : Bytes
  num : Int

/-- `SpotiFetch` with its `Internal`. `queue` has the buffers which were put into the output queue
since the start, whoever has taken them since. -/
structure SpotiFetch where
  dryrun : Bool := false
  streamneedinit : Bool := true
  initseekmsecs : Int := 0
  noheader : Bool := false
  samplerate : Int := 0
  channels : Int := 0
  durationms : Int := 0
  contentlen : Nat := 0
  totalsent : Nat := 0
  queue : List Bytes := []

namespace SpotiFetch

/-- `inttoichar4`, of an unsigned int. -/
def inttoichar4 (addr : Nat) : Bytes :=
  [UInt8.ofNat addr, UInt8.ofNat (addr / 256), UInt8.ofNat (addr / 65536),
    UInt8.ofNat (addr / 16777216)]

/-- `inttoichar2`. -/
def inttoichar2 (cnt : Nat) : Bytes := [UInt8.ofNat cnt, UInt8.ofNat (cnt / 256)]

/-- `WAVHSIZE`. -/
def wavHSize : Nat := 44

/-- `makewavheader`: what is written to the buffer, and the number of bytes. -/
def makewavheader (maxsize freq bits chans : Int) (databytecnt : Nat) : Option (Bytes × Int) :=
  if maxsize < wavHSize then some ([], -1)
  else do
    let sampsize ← CInt.div bits 8
    let avgbytpersec ← (CInt.mul freq chans).bind fun rate => CInt.mul rate sampsize
    let blockalign ← (CInt.mul chans bits).bind fun size => CInt.div size 8
    let unsigned := CInt.toUnsigned UInt32.size
    return (bytes "RIFF" ++ inttoichar4 ((databytecnt + 36) % UInt32.size) ++ bytes "WAVE" ++
      bytes "fmt " ++ inttoichar4 16 ++ inttoichar2 1 ++ inttoichar2 (unsigned chans) ++
      inttoichar4 (unsigned freq) ++ inttoichar4 (unsigned avgbytpersec) ++
      inttoichar2 (unsigned blockalign) ++ inttoichar2 (unsigned bits) ++
      bytes "data" ++ inttoichar4 databytecnt, wavHSize)

/-- `databufToQ`, into a queue which is open. -/
def databufToQ (f : SpotiFetch) (contents : Bytes) : SpotiFetch :=
  { f with queue := f.queue ++ [contents] }

/-- The length of the content, for a stream with these many milliseconds. -/
def streamLength (noheader : Bool) (msecs chans rate : Int) : Option Int := do
  let hundredths ← CInt.div msecs 10
  let samples ← CInt.div rate 100
  let size ← CInt.mul hundredths samples
  let size ← CInt.mul size 2
  let size ← CInt.mul size chans
  CInt.add (if noheader then 0 else 44) size

/-- The part of `framesink` under the lock, which is done for the first data. -/
def initStream (spp : SpotiProxy) (f : SpotiFetch) (chans rate : Int) : Option SpotiFetch := do
  let durationms ← CInt.add spp.durationMs 300
  let msecs ← CInt.sub durationms f.initseekmsecs
  let contentlen ← streamLength f.noheader msecs chans rate
  return { f with
    samplerate := rate
    channels := chans
    streamneedinit := false
    durationms := durationms
    contentlen := CInt.toUnsigned UInt64.size contentlen }

/-- The header goes before the first data. -/
def sendHeader (f : SpotiFetch) (chans rate : Int) : Option SpotiFetch := do
  let databytecnt := (f.contentlen + UInt64.size - 44) % UInt64.size % UInt32.size
  let (buf, cnt) ← makewavheader 100 rate 16 chans databytecnt
  let f := { f with
    totalsent := (f.totalsent + CInt.toUnsigned UInt64.size cnt) % UInt64.size }
  return f.databufToQ (buf.take (CInt.toUnsigned UInt64.size cnt))

/-- What `framesink` does when the stream needs to be initialised. -/
def openStream (spp : SpotiProxy) (f : SpotiFetch) (chans rate : Int) : Option SpotiFetch :=
  if f.streamneedinit then do
    let f ← initStream spp f chans rate
    if f.dryrun = false ∧ f.noheader = false then sendHeader f chans rate else return f
  else some f

/-- The milliseconds of the padding, for the log. -/
def paddingMs (resid : Nat) (chans rate : Int) : Option Nat := do
  let size ← CInt.mul 2 chans
  let size ← CInt.mul size rate
  let size ← CInt.div size 100
  let size := CInt.toUnsigned UInt64.size size
  if size = 0 then none else return resid * 10 % UInt64.size / size

/-- What of the padding goes into the log. -/
def logPadding (spp : SpotiProxy) (resid : Nat) (chans rate : Int) : Option Nat :=
  if spp.logdeb then paddingMs resid chans rate else some 0

/-- The end of the stream. There is memory for the padding. -/
def endOfStream (spp : SpotiProxy) (f : SpotiFetch) (chans rate : Int) : Option SpotiFetch := do
  let resid := (f.contentlen + UInt64.size - f.totalsent) % UInt64.size
  if 0 < resid ∧ resid < 5000000 then
    let _ ← logPadding spp resid chans rate
    return (f.databufToQ (List.replicate resid 0)).databufToQ []
  else return f.databufToQ []

/-- So many bytes of the frames are sent. -/
def sendBytes (f : SpotiFetch) (frames : Bytes) (count : Int) : SpotiFetch :=
  let sent := CInt.toUnsigned UInt64.size count
  { f with totalsent := (f.totalsent + sent) % UInt64.size }.databufToQ (frames.take sent)

/-- What `framesink` does with data. -/
def sendFrames (f : SpotiFetch) (frames : Frames) (chans : Int) : Option SpotiFetch := do
  let count ← (CInt.mul frames.num chans).bind fun samples => CInt.mul samples 2
  if (f.totalsent + CInt.toUnsigned UInt64.size count) % UInt64.size > f.contentlen then
    let count := CInt.ofUnsigned ((f.contentlen + UInt64.size - f.totalsent) % UInt64.size)
    return if count ≤ 0 then f else f.sendBytes frames.data count
  else return f.sendBytes frames.data count

/-- `framesink`, with the number of frames which it has used. -/
def framesink (spp : SpotiProxy) (chans rate : Int) (f : SpotiFetch) (frames : Frames) :
    Option (SpotiFetch × Int) := do
  let f ← openStream spp f chans rate
  if f.dryrun then return (f, frames.num)
  else if frames.num = 0 then return (← endOfStream spp f chans rate, 0)
  else return (← sendFrames f frames chans, frames.num)

/-- The calls of the sink, one after the other. -/
def sinkAll (spp : SpotiProxy) (chans rate : Int) (f : SpotiFetch) (calls : List Frames) :
    Option SpotiFetch :=
  calls.foldlM (fun f frames => (framesink spp chans rate f frames).map Prod.fst) f

/-- `resetStreamFields`, with a queue for a new transfer. -/
def reset (_ : SpotiFetch) : SpotiFetch := {}

/-- `dodryrun`, with the calls of the sink up to its end. It waits for a sample rate. -/
def dodryrun (spp : SpotiProxy) (chans rate : Int) (calls : List Frames) (f : SpotiFetch) :
    Option SpotiFetch :=
  let f := { f with dryrun := true }
  if spp.startPlay 0 = false then some { f with dryrun := false, streamneedinit := true }
  else do
    let f ← sinkAll spp chans rate f calls
    if f.samplerate = 0 then none else return { f with streamneedinit := true }

/-- The position in the track, for an offset in the stream. -/
def seekmsecs (f : SpotiFetch) (offset : Nat) : Option Nat := do
  let size ← CInt.mul f.channels 2
  let samples ← CInt.div f.samplerate 100
  let size ← CInt.mul size samples
  let size := CInt.toUnsigned UInt64.size size
  if size = 0 then none
  else return min (10 * offset % UInt64.size / size) (CInt.toUnsigned UInt64.size f.durationms)

/-- `start`. -/
def start (spp : SpotiProxy) (chans rate : Int) (dry : List Frames) (offset : Nat)
    (f : SpotiFetch) : Option (SpotiFetch × Bool) :=
  let f := f.reset
  if offset = 0 then some (f, spp.startPlay 0)
  else do
    let f ← dodryrun spp chans rate dry f
    if f.samplerate = 0 ∨ f.channels = 0 then return (f, false)
    else
      let v ← seekmsecs f offset
      let f := { f with
        initseekmsecs := CInt.ofUnsigned v
        dryrun := false
        samplerate := 0
        noheader := true }
      return (f, spp.startPlay f.initseekmsecs)

end SpotiFetch

end Upmpdcli
