import Upmpdcli.Lib.Base64
import Upmpdcli.Lib.Count
import Upmpdcli.Lib.Decimal
import Upmpdcli.Lib.Dict
import Upmpdcli.Lib.Fold
import Upmpdcli.Lib.Lines
import Upmpdcli.Lib.Machine
import Upmpdcli.Lib.MapM
import Upmpdcli.Lib.Mutex
import Upmpdcli.Lib.Page
import Upmpdcli.Lib.PosixPath
import Upmpdcli.Lib.Strip
import Upmpdcli.Lib.Text
import Upmpdcli.Lib.Utf8
import Upmpdcli.Lib.VarMap
import Upmpdcli.Bytes
import Upmpdcli.Smallut
import Upmpdcli.SmallutRoundTrip
import Upmpdcli.UpSong
import Upmpdcli.Cdplugins.ResultToEntries
import Upmpdcli.Cdplugins.ContentCache
import Upmpdcli.Cdplugins.PlgWithSlave
import Upmpdcli.Cdplugins.PlgWithSlaveTransparency
import Upmpdcli.Cdplugins.PlgWithSlaveTranslation
import Upmpdcli.ContentDirectory
import Upmpdcli.ContentDirectoryPlugins
import Upmpdcli.OHService
import Upmpdcli.OHCredentials
import Upmpdcli.OHCredentialsTokens
import Upmpdcli.OHCredentialsSequence
import Upmpdcli.Mpd
import Upmpdcli.MpdCli
import Upmpdcli.Cdplugins.BufXChange
import Upmpdcli.Cdplugins.CurlFetch
import Upmpdcli.Cdplugins.StreamProxy
import Upmpdcli.Cdplugins.StreamProxyIntegrity
import Upmpdcli.MpdCliInsert
import Upmpdcli.MpdCliInsertPlace
import Upmpdcli.UpMpd
import Upmpdcli.Volume
import Upmpdcli.VolumeMute
import Upmpdcli.VolumeTransparent
import Upmpdcli.VolumeEvents
import Upmpdcli.MpdCliState
import Upmpdcli.OHPlaylist
import Upmpdcli.OHPlaylistCache
import Upmpdcli.OHPlaylistInsert
import Upmpdcli.OHPlaylistSwitch
import Upmpdcli.OHPlaylistMetadata
import Upmpdcli.OHPlaylistToken
import Upmpdcli.AVTransport
import Upmpdcli.AVTransportTrack
import Upmpdcli.AVTransportPromotion
import Upmpdcli.OHRadio
import Upmpdcli.OHReceiver
import Upmpdcli.OHReceiverState
import Upmpdcli.OHSndrcv
import Upmpdcli.OHProduct
import Upmpdcli.OHSources
import Upmpdcli.OHSourcesCoherent
import Upmpdcli.OHPlaylistWake
import Upmpdcli.OHMetaCache
import Upmpdcli.AVTransportOwnQueue
import Upmpdcli.Conftree
import Upmpdcli.ConftreeOrder
import Upmpdcli.ConftreeSound
import Upmpdcli.ConftreeRoundTrip
import Upmpdcli.Netcon
import Upmpdcli.Cdplugins.Cmdtalk
import Upmpdcli.Cdplugins.CmdtalkSync
import Upmpdcli.MpdCliSnapshot
import Upmpdcli.MpdCliRetry
import Upmpdcli.AVTransportAtomic
import Upmpdcli.AVTransportState
import Upmpdcli.Cdplugins.Shlex
import Upmpdcli.Cdplugins.StringToStrings
import Upmpdcli.MpdCliIdle
import Upmpdcli.MpdCliThreads
import Upmpdcli.Cdplugins.Conftree
import Upmpdcli.Cdplugins.ConftreeAgree
import Upmpdcli.Cdplugins.Uprcl.Utils
import Upmpdcli.Cdplugins.Uprcl.Folders
import Upmpdcli.Cdplugins.Uprcl.FoldersTree
import Upmpdcli.Cdplugins.Uprcl.FoldersPlace
import Upmpdcli.Cdplugins.Uprcl.FoldersLines
import Upmpdcli.Cdplugins.Uprcl.Playlists
import Upmpdcli.Cdplugins.Uprcl.PlaylistsIds
import Upmpdcli.Cdplugins.Uprcl.TagsCreate
import Upmpdcli.Cdplugins.Uprcl.TagsCreateOrder
import Upmpdcli.Cdplugins.Uprcl.TagsCreateMerge
import Upmpdcli.Cdplugins.Uprcl.TagsCreatePass
import Upmpdcli.Cdplugins.Uprcl.Http
import Upmpdcli.Cdplugins.Uprcl.Init
import Upmpdcli.NetconTimeout
import Upmpdcli.OHPlaylistSaved
import Upmpdcli.Cdplugins.Uprcl.TagsCreateTables
import Upmpdcli.Cdplugins.Uprcl.TagsCreateRows
import Upmpdcli.Cdplugins.Uprcl.TagsCreateComplete
import Upmpdcli.Cdplugins.Uprcl.FoldersClean
import Upmpdcli.Cdplugins.Uprcl.FoldersCleanLines
import Upmpdcli.Cdplugins.Uprcl.FoldersWellFormed
import Upmpdcli.OHReceiverPlay
import Upmpdcli.Cdplugins.Uprcl.FoldersBrowse
import Upmpdcli.Lib.Json
import Upmpdcli.Cdplugins.Subsonic.Identifier
import Upmpdcli.Lib.VarDelta
import Upmpdcli.LastChange
import Upmpdcli.OHInfo
import Upmpdcli.OHInfoCoherent
import Upmpdcli.AVTransportForeign
import Upmpdcli.Cdplugins.StreamProxyReply
import Upmpdcli.Cdplugins.StreamProxyRange
import Upmpdcli.OHSndrcvEvents
import Upmpdcli.OHSndrcvSurvive
import Upmpdcli.Cdplugins.StreamProxyTeardown
import Upmpdcli.Cdplugins.Uprcl.Search
import Upmpdcli.Cdplugins.Uprcl.SearchReads
import Upmpdcli.Cdplugins.Subsonic.AlbumLoops
import Upmpdcli.OHRadioId
import Upmpdcli.OHSeek
import Upmpdcli.VolumeAtomic
import Upmpdcli.Cdplugins.PlgWithSlaveContained
import Upmpdcli.OHPlaylistReads
import Upmpdcli.OHPlaylistTruth
import Upmpdcli.Cdplugins.Subsonic.AlbumUtil
import Upmpdcli.Cdplugins.Subsonic.AlbumVersions
import Upmpdcli.Cdplugins.Subsonic.Pages
import Upmpdcli.Lib.Xml
import Upmpdcli.UpSongDidl
import Upmpdcli.Cdplugins.Subsonic.CodecStrip
import Upmpdcli.Cdplugins.Uprcl.MinimTagFixer
import Upmpdcli.OHMetaCacheReplace
import Upmpdcli.Protocolinfo
import Upmpdcli.Cdplugins.RadioBrowser
import Upmpdcli.Cdplugins.RadioBrowserIds
import Upmpdcli.Cdplugins.StreamProxyOwner
import Upmpdcli.Cdplugins.Uprcl.Tags
import Upmpdcli.Cdplugins.Uprcl.TagsAlbum
import Upmpdcli.Cdplugins.Uprcl.TagsPages
import Upmpdcli.Cdplugins.PlgWithSlaveEli5
import Upmpdcli.Lib.Condvar
import Upmpdcli.WorkQueue
import Upmpdcli.WorkQueueOrderly
import Upmpdcli.Cdplugins.Uprcl.FoldersAppear
import Upmpdcli.Cdplugins.Spotify.Spotiproxy
import Upmpdcli.Cdplugins.Spotify.SpotiproxyLength
import Upmpdcli.Cdplugins.Uprcl.TagsBrowse
import Upmpdcli.Cdplugins.Uprcl.TagsBuilt
import Upmpdcli.Cdplugins.Uprcl.TagsCount
import Upmpdcli.Cdplugins.Uprcl.TagsCountOnce
import Upmpdcli.Cdplugins.Uprcl.FoldersDirpath
import Upmpdcli.Cdplugins.Uprcl.TagsPlaced
import Upmpdcli.Cdplugins.Uprcl.TagsViewExact
import Upmpdcli.Cdplugins.Uprcl.FoldersIds
import Upmpdcli.Cdplugins.ConftreeWritten
import Upmpdcli.ConftreeReopen
import Upmpdcli.OHCredentialsSaved
import Upmpdcli.AVTransportControl
import Upmpdcli.Cdplugins.Routing
import Upmpdcli.Cdplugins.XbmcPlug
import Upmpdcli.PlayModes
