import Upmpdcli.Smallut

set_option autoImplicit false

namespace Upmpdcli

/-- `UpSong::Res`, the description of one UPnP resource. -/
structure Res where
  uri : String := ""
  duration_secs : Int := 0
  size : Int := 0
  bitrate : Int := 0
  samplefreq : Int := 0
  bitsPerSample : Int := 0
  channels : Int := 0
  mime : String := ""
deriving DecidableEq

structure UpSong where
  id : String := ""
  parentid : String := ""
  name : String := ""
  artist : String := ""
  album : String := ""
  title : String := ""
  tracknum : String := ""
  genre : String := ""
  artUri : String := ""
  upnpClass : String := ""
  date : String := ""
  dcdescription : String := ""
  didlfrag : String := ""
  rsrc : Res := {}
  resources : List Res := []
  mpdid : Int := 0
  iscontainer : Bool := false
  searchable : Bool := false
deriving DecidableEq

/-- The functions of libupnpp which the DIDL output calls. -/
structure SoapHelp where
  xmlQuote : String → String
  upnpduration : Int → String

namespace UpSong

def item (id parentid title : String) : UpSong := { id, parentid, title }

section Didl

variable (soap : SoapHelp)

/-- `UPNPXML`: an element which is left out when the field is empty. -/
def upnpXml (field tag : String) : String :=
  if field = "" then "" else s!"<{tag}>{soap.xmlQuote field}</{tag}>"

/-- `UPNPXMLD`: an element with a default. -/
def upnpXmlDefault (field tag default : String) : String :=
  let text := if field = "" then default else field
  s!"<{tag}>{soap.xmlQuote text}</{tag}>"

def resAttribute (value : Int) (name : String) : String :=
  if value = 0 then "" else s!" {name}=\"{value}\""

def didlPrintResource (res : Res) : String :=
  "<res" ++
  (if res.duration_secs = 0 then "" else
    s!" duration=\"{soap.upnpduration (wrap32 (res.duration_secs * 1000))}\"") ++
  resAttribute res.size "size" ++
  resAttribute res.bitrate "bitrate" ++
  resAttribute res.samplefreq "sampleFrequency" ++
  resAttribute res.bitsPerSample "bitsPerSample" ++
  resAttribute res.channels "nrAudioChannels" ++
  (if res.mime = "" then "" else s!" protocolInfo=\"http-get:*:{res.mime}:* \"") ++
  s!">{soap.xmlQuote res.uri}</res>"

/-- What is in the output of `didl` exactly when the song comes from MPD, that is when it
has no object id. -/
def origMpd : String := "<orig>mpd</orig>"

def didl (song : UpSong) (noresource : Bool) : String :=
  let typetag := if song.iscontainer then "container" else "item"
  s!"<{typetag}" ++
  (if song.id = "" then "" else s!" id=\"{song.id}") ++
  (if song.parentid = "" then "" else s!"\" parentID=\"{song.parentid}\"") ++
  s!" restricted=\"1\" searchable=\"{if song.searchable then 1 else 0}\">" ++
  s!"<dc:title>{soap.xmlQuote song.title}</dc:title>" ++
  (if song.id = "" then origMpd else "") ++
  (if song.iscontainer then
    upnpXmlDefault soap song.upnpClass "upnp:class" "object.container" ++
    (if song.tracknum = "" then "" else
      s!"<upnp:userAnnotation>{soap.xmlQuote song.tracknum}</upnp:userAnnotation>")
  else
    upnpXmlDefault soap song.upnpClass "upnp:class" "object.item.audioItem.musicTrack" ++
    upnpXml soap song.album "upnp:album" ++
    upnpXml soap song.tracknum "upnp:originalTrackNumber" ++
    (if noresource then "" else
      (song.rsrc :: song.resources).foldl (fun ss res => ss ++ didlPrintResource soap res) "")) ++
  upnpXml soap song.genre "upnp:genre" ++
  upnpXml soap song.artist "dc:creator" ++
  upnpXml soap song.artist "upnp:artist" ++
  upnpXml soap song.date "dc:date" ++
  upnpXml soap song.dcdescription "dc:description" ++
  upnpXml soap song.artUri "upnp:albumArtURI" ++
  song.didlfrag ++
  s!"</{typetag}>"

def headDIDL : String :=
  "<?xml version=\"1.0\" encoding=\"utf-8\"?>" ++
  "<DIDL-Lite xmlns:dc=\"http://purl.org/dc/elements/1.1/\" " ++
  "xmlns:upnp=\"urn:schemas-upnp-org:metadata-1-0/upnp/\" " ++
  "xmlns=\"urn:schemas-upnp-org:metadata-1-0/DIDL-Lite/\" " ++
  "xmlns:dlna=\"urn:schemas-dlna-org:metadata-1-0/\">"

def tailDIDL : String := "</DIDL-Lite>"

def wrapDIDL (data : String) : String := headDIDL ++ data ++ tailDIDL

def didlmake (song : UpSong) (noresource : Bool := false) : String :=
  wrapDIDL (song.didl soap noresource)

theorem contains_didlmake {song : UpSong} (fromMpd : song.id = "") :
    Smallut.contains (song.didlmake soap) origMpd = true := by
  unfold didlmake wrapDIDL
  apply Smallut.contains_append_right
  apply Smallut.contains_append_left
  unfold didl
  dsimp only
  -- the title is followed by the mark and nine other parts
  iterate 9 apply Smallut.contains_append_right
  rw [fromMpd, if_pos rfl]
  apply Smallut.contains_append_left
  exact Smallut.contains_self origMpd

end Didl

end UpSong

end Upmpdcli
