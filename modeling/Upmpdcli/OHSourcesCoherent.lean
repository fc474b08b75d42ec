import Upmpdcli.OHSources

set_option autoImplicit false

namespace Upmpdcli

namespace OHProduct

variable {cfg : SourceConfig}

/-- The sources there can be. The last kind, the scripts, need the sender. -/
inductive Listed (cfg : SourceConfig) : Source → Prop
  | playlist : Listed cfg OHPlaylistSource
  | radio (ohrd : cfg.ohrd = true) : Listed cfg OHRadioSource
  | receiver (ohrcv : cfg.ohrcv = true) : Listed cfg OHReceiverSource
  | senderPlaylist (ohrcv : cfg.ohrcv = true) (sndrcv : cfg.sndrcv = true) :
      Listed cfg SndRcvPLSource
  | senderRadio (ohrcv : cfg.ohrcv = true) (sndrcv : cfg.sndrcv = true)
      (ohrd : cfg.ohrd = true) : Listed cfg SndRcvRDSource
  | script (source : Source) (ohrcv : cfg.ohrcv = true)
      (external : source.type ∈ ["Analog", "Digital", "Hdmi"]) : Listed cfg source

theorem type_listScripts {scripts : List (String × Bool)} {source : Source}
    (listed : source ∈ listScripts scripts) : source.type ∈ ["Analog", "Digital", "Hdmi"] := by
  obtain ⟨⟨tpnm, executable⟩, -, found⟩ := List.mem_filterMap.mp listed
  simp only [scriptSource] at found
  split at found
  · cases found
  · split at found
    · rename_i known
      cases found
      exact known.1
    · cases found

theorem listed_senderSources {source : Source} (listed : source ∈ senderSources cfg)
    (ohrcv : cfg.ohrcv = true) (sndrcv : cfg.sndrcv = true) : Listed cfg source := by
  unfold senderSources at listed
  split at listed
  · cases listed
  · rcases List.mem_cons.mp listed with rfl | radio
    · exact .senderPlaylist ohrcv sndrcv
    · split at radio
      · rename_i ohrd
        cases List.mem_singleton.mp radio
        exact .senderRadio ohrcv sndrcv ohrd
      · cases radio

theorem listed_sources {source : Source} (listed : source ∈ sources cfg) : Listed cfg source := by
  unfold sources at listed
  rcases List.mem_cons.mp listed with rfl | listed
  · exact .playlist
  · rcases List.mem_append.mp listed with radio | listed
    · split at radio
      · rename_i ohrd
        cases List.mem_singleton.mp radio
        exact .radio ohrd
      · cases radio
    · split at listed
      · rename_i ohrcv
        rcases List.mem_cons.mp listed with rfl | listed
        · exact .receiver ohrcv
        · split at listed
          · rename_i sender
            rcases List.mem_append.mp listed with sending | script
            · exact listed_senderSources sending ohrcv sender.1
            · exact .script source ohrcv (type_listScripts script)
          · cases listed
      · cases listed

/-- The type of a script is not the type of any source of a service. -/
theorem ne_of_external {source : Source} (external : source.type ∈ ["Analog", "Digital", "Hdmi"])
    {other : Source} (internal : other.type ∉ ["Analog", "Digital", "Hdmi"]) :
    source ≠ other := fun same => internal (same ▸ external)

theorem service_of_external {source : Source}
    (external : source.type ∈ ["Analog", "Digital", "Hdmi"]) : service source = none := by
  have other := @ne_of_external source external
  unfold service
  rw [if_neg, if_neg, if_neg]
  · exact other (by decide)
  · rintro (same | same)
    · exact other (by decide) same
    · exact other (by decide) same
  · rintro (same | same)
    · exact other (by decide) same
    · exact other (by decide) same

end OHProduct

namespace Device

variable {cfg : SourceConfig} (help : SourceHelp) {dev : Device cfg}
  {service : Option SourceService} {playing : Bool}

theorem shows_setPlaylistActive (shows : dev.Shows service playing)
    (alone : service = none ∨ service = some .playlist) (onoff : Bool) (env : SwitchEnv) :
    (dev.setPlaylistActive help onoff env).Shows (if onoff then some .playlist else none)
      playing := by
  obtain ⟨playlist, radio, receiver, flag⟩ := shows
  have others : dev.ohrd.m_active = false ∧ dev.ohrcv.m_active = false := by
    rcases alone with rfl | rfl
    · exact ⟨radio, receiver⟩
    · exact ⟨radio, receiver⟩
  cases onoff with
  | true => exact ⟨rfl, others.1, others.2, flag⟩
  | false => exact ⟨rfl, others.1, others.2, flag⟩

theorem shows_setRadioActive (shows : dev.Shows service playing)
    (alone : service = none ∨ service = some .radio) (onoff : Bool) (env : RadioSwitchEnv) :
    (dev.setRadioActive onoff env).Shows (if onoff then some .radio else none) playing := by
  obtain ⟨playlist, radio, receiver, flag⟩ := shows
  have others : dev.ohpl.m_active = false ∧ dev.ohrcv.m_active = false := by
    rcases alone with rfl | rfl
    · exact ⟨playlist, receiver⟩
    · exact ⟨playlist, receiver⟩
  have active := dev.ohrd.active_setActive dev.world onoff env
  cases onoff with
  | true => exact ⟨others.1, active, others.2, flag⟩
  | false => exact ⟨others.1, active, others.2, flag⟩

theorem shows_setReceiverActive (shows : dev.Shows service playing)
    (alone : service = none ∨ service = some .receiver) (onoff : Bool) (env : SwitchEnv) :
    (dev.setReceiverActive onoff env).Shows (if onoff then some .receiver else none)
      playing := by
  obtain ⟨playlist, radio, receiver, flag⟩ := shows
  have others : dev.ohpl.m_active = false ∧ dev.ohrd.m_active = false := by
    rcases alone with rfl | rfl
    · exact ⟨playlist, radio⟩
    · exact ⟨playlist, radio⟩
  have active := dev.ohrcv.active_setActive dev.world onoff env.receiver
  cases onoff with
  | true => exact ⟨others.1, others.2, active, flag⟩
  | false => exact ⟨others.1, others.2, active, flag⟩

theorem shows_setRadio (shows : dev.Shows service playing) (on : Bool) :
    (dev.setRadio on).Shows service on :=
  ⟨shows.playlist, shows.radio, shows.receiver, rfl⟩

theorem shows_startSender (shows : dev.Shows service playing) (script : String) (seekms : Int)
    (env : SwitchEnv) : (dev.startSender help script seekms env).2.Shows service playing :=
  ⟨shows.playlist, shows.radio,
    (SenderReceiver.active_start _ _ _ dev.sending script seekms env.start).trans shows.receiver,
    shows.radioPlaying⟩

/-- Stopping the sender only fails when there is no receiver service. -/
theorem shows_stopSender (shows : dev.Shows service playing) (ohrcv : cfg.ohrcv = true)
    (env : SwitchEnv) :
    (dev.stopSender env).1 = true ∧ (dev.stopSender env).2.Shows service playing := by
  refine ⟨?_, shows.playlist, shows.radio, ?_, shows.radioPlaying⟩
  · unfold stopSender
    rw [ohrcv]
    rfl
  · exact (SenderReceiver.active_stop _ dev.sending env.stop).trans shows.receiver

end Device

namespace OHProduct

variable {cfg : SourceConfig} (help : SourceHelp) {dev : Device cfg}

/-- Leaving the current source leaves no service active. -/
theorem deactivate_spec (coherent : dev.Coherent) (env : SwitchEnv) :
    (deactivate help dev env).1 = true ∧ (deactivate help dev env).2.Shows none false := by
  have listed := listed_sources ((sources cfg).get_mem dev.m_sourceIndex)
  change Listed cfg dev.source at listed
  unfold Device.Coherent at coherent
  generalize here : dev.source = cur at listed coherent
  have silent : service cur ≠ some .radio → dev.ohrd.m_active = false := by
    intro other
    rw [coherent.radio]
    exact decide_eq_false other
  unfold deactivate
  dsimp only
  rw [here]
  cases listed with
  | playlist =>
      rw [if_pos rfl]
      rw [silent (by decide)] at coherent
      exact ⟨rfl, Device.shows_setPlaylistActive help coherent (.inr rfl) false env⟩
  | radio ohrd =>
      rw [if_neg (by decide), if_neg (fun both => absurd both.2 (by decide)), if_pos ⟨ohrd, rfl⟩]
      have quiet := Device.shows_setRadio coherent false
      exact ⟨rfl, Device.shows_setRadioActive quiet (.inr rfl) false env.radioOff⟩
  | receiver ohrcv =>
      rw [if_neg (by decide), if_pos ⟨ohrcv, rfl⟩]
      rw [silent (by decide)] at coherent
      exact ⟨rfl, Device.shows_setReceiverActive coherent (.inr rfl) false env⟩
  | senderPlaylist ohrcv sndrcv =>
      rw [if_neg (by decide), if_neg (fun both => absurd both.2 (by decide)),
        if_neg (fun both => absurd both.2 (by decide)), if_pos ⟨sndrcv, rfl⟩]
      rw [silent (by decide)] at coherent
      have left := Device.shows_setPlaylistActive help coherent (.inr rfl) false env
      exact Device.shows_stopSender left ohrcv env
  | senderRadio ohrcv sndrcv ohrd =>
      rw [if_neg (by decide), if_neg (fun both => absurd both.2 (by decide)),
        if_neg (fun both => absurd both.2 (by decide)),
        if_neg (fun both => absurd both.2 (by decide)), if_pos ⟨sndrcv, ohrd, rfl⟩]
      have quiet := Device.shows_setRadio coherent false
      have left := Device.shows_setRadioActive quiet (.inr rfl) false env.radioOff
      exact Device.shows_stopSender left ohrcv env
  | script _ ohrcv external =>
      have other := @ne_of_external cur external
      have none := service_of_external external
      rw [if_neg (other (by decide)), if_neg (fun both => other (by decide) both.2),
        if_neg (fun both => other (by decide) both.2),
        if_neg (fun both => other (by decide) both.2),
        if_neg (fun both => other (by decide) both.2.2)]
      rw [none] at coherent silent
      rw [silent (by decide)] at coherent
      exact Device.shows_stopSender coherent ohrcv env

/-- The name decides which service becomes active. The flag is not set for the radio which
plays for the sender. -/
theorem activate_spec (shows : dev.Shows none false) (new : Source) (env : SwitchEnv) :
    (activate help dev new env).2.Shows (selects cfg new.name)
      (decide (selects cfg new.name = some .radio ∧ new.name ≠ SndRcvRDName)) := by
  unfold activate selects
  split
  · exact Device.shows_setPlaylistActive help shows (.inl rfl) true env
  · split
    · exact Device.shows_setReceiverActive shows (.inl rfl) true env
    · split
      · rename_i radio
        rw [radio.2]
        have playing := Device.shows_setRadio shows true
        exact Device.shows_setRadioActive playing (.inl rfl) true env.radioOn
      · split
        · have started := Device.shows_startSender help shows "" 0 env
          exact Device.shows_setPlaylistActive help started (.inl rfl) true env
        · split
          · rename_i radio
            rw [radio.2.2]
            have started := Device.shows_startSender help shows "" 0 env
            exact Device.shows_setRadioActive started (.inl rfl) true env.radioOn
          · exact Device.shows_startSender help shows _ 0 env

end OHProduct

theorem Device.Shows.unique {cfg : SourceConfig} {dev : Device cfg}
    {service other : Option SourceService} {playing flag : Bool} (shows : dev.Shows service playing)
    (too : dev.Shows other flag) : service = other := by
  apply Option.ext
  intro active
  cases active with
  | playlist => exact decide_eq_decide.mp (shows.playlist.symm.trans too.playlist)
  | radio => exact decide_eq_decide.mp (shows.radio.symm.trans too.radio)
  | receiver => exact decide_eq_decide.mp (shows.receiver.symm.trans too.receiver)

/-- What every state has in a run which meets the condition. -/
def Device.Settled {cfg : SourceConfig} (dev : Device cfg) : Prop :=
  dev.Coherent ∧ OHProduct.Regular cfg dev.source

/-- Asking for this source has kept the services together exactly if it is a regular one. -/
def Device.Agrees {cfg : SourceConfig} (dev : Device cfg) (asked : Option Source) : Prop :=
  (dev.Coherent ↔ ∀ source ∈ asked, OHProduct.Regular cfg source) ∧ (dev.Coherent → dev.Settled)

theorem Device.Settled.agrees {cfg : SourceConfig} {dev : Device cfg} (settled : dev.Settled) :
    dev.Agrees none := by
  refine ⟨⟨fun _ source there => ?_, fun _ => settled.1⟩, fun _ => settled⟩
  cases there

theorem Device.Agrees.settled {cfg : SourceConfig} {dev : Device cfg} {asked : Option Source}
    (agrees : dev.Agrees asked) (regular : ∀ source ∈ asked, OHProduct.Regular cfg source) :
    dev.Settled := agrees.2 (agrees.1.mpr regular)

namespace OHProduct

variable {cfg : SourceConfig} (help : SourceHelp) {dev : Device cfg}

theorem eq_of_service_radio {source : Source} (radio : service source = some .radio) :
    source = OHRadioSource ∨ source = SndRcvRDSource := by
  unfold service at radio
  split at radio
  · cases radio
  · split at radio
    · assumption
    · split at radio
      · cases radio
      · cases radio

/-- A device on which the name of the source has selected the active service. -/
theorem coherent_iff_regular (shows : dev.Shows (selects cfg dev.source.name)
      (decide (selects cfg dev.source.name = some .radio ∧ dev.source.name ≠ SndRcvRDName))) :
    dev.Coherent ↔ Regular cfg dev.source := by
  constructor
  · intro coherent
    have same := shows.unique coherent
    refine ⟨same, fun sender => ?_⟩
    have flag := shows.radioPlaying.symm.trans (coherent.radioPlaying.trans shows.radio)
    rw [same, sender] at flag
    exact absurd flag (by decide)
  · rintro ⟨same, other⟩
    have playing : decide (selects cfg dev.source.name = some .radio ∧
        dev.source.name ≠ SndRcvRDName) = decide (selects cfg dev.source.name = some .radio) := by
      rw [decide_eq_decide]
      refine ⟨And.left, fun radio => ⟨radio, ?_⟩⟩
      rcases eq_of_service_radio (same ▸ radio) with ours | sender
      · rw [ours]
        decide
      · exact absurd sender other
    unfold Device.Coherent
    rw [shows.radio, ← same, ← playing]
    exact shows

theorem agrees_setSource (settled : dev.Settled) (sindex : Fin (sources cfg).length)
    (env : SwitchEnv) :
    (setSource help dev sindex env).2.Agrees (some ((sources cfg).get sindex)) := by
  unfold setSource
  split
  · rename_i same
    subst same
    refine ⟨⟨fun _ source there => ?_, fun _ => settled.1⟩, fun _ => settled⟩
    cases there
    exact settled.2
  · obtain ⟨stopped, left⟩ := deactivate_spec help settled.1 env
    split
    · rename_i failed
      rw [failed] at stopped
      cases stopped
    · rename_i left' ran
      rw [ran] at left
      have chosen := activate_spec help left ((sources cfg).get sindex) env
      let chosen' : Device cfg := { (activate help left' ((sources cfg).get sindex) env).2 with
        m_sourceIndex := sindex, savedsrc := some ((sources cfg).get sindex).name }
      have regular : chosen'.Coherent ↔ Regular cfg ((sources cfg).get sindex) :=
        coherent_iff_regular
          ⟨chosen.playlist, chosen.radio, chosen.receiver, chosen.radioPlaying⟩
      refine ⟨regular.trans ⟨fun here source there => ?_, fun all => all _ rfl⟩,
        fun coherent => ⟨coherent, regular.mp coherent⟩⟩
      cases there
      exact here

theorem agrees_iSetSourceIndex (settled : dev.Settled) (sindex : Int) (env : SwitchEnv) :
    (iSetSourceIndex help dev sindex env).2.Agrees
      (if sindex < 0 then none else (sources cfg)[sindex.toNat]?) := by
  unfold iSetSourceIndex
  split
  · rename_i bad
    have none : (if sindex < 0 then none else (sources cfg)[sindex.toNat]?) = none := by
      split
      · rfl
      · rw [List.getElem?_eq_none_iff]
        omega
    rw [none]
    exact settled.agrees
  · rename_i good
    have some : (if sindex < 0 then none else (sources cfg)[sindex.toNat]?) =
        some ((sources cfg).get ⟨sindex.toNat, by omega⟩) := by
      rw [if_neg (by omega)]
      exact List.getElem?_eq_getElem _
    rw [some]
    exact agrees_setSource help settled _ env

theorem agrees_iSetSourceIndexByName (settled : dev.Settled) (name : String) (env : SwitchEnv) :
    (iSetSourceIndexByName help dev name env).2.Agrees
      ((sources cfg).find? fun source => source.name = name) := by
  unfold iSetSourceIndexByName
  rw [List.find?_eq_map_findFinIdx?_getElem]
  split
  · rename_i sindex found
    unfold iSrcNameToIndex at found
    rw [found]
    exact agrees_setSource help settled sindex env
  · rename_i missing
    unfold iSrcNameToIndex at missing
    rw [missing]
    exact settled.agrees

/-- The sources of the services come before the scripts and are what their names find. -/
theorem settled_byName (settled : dev.Settled) {source : Source} (regular : Regular cfg source)
    (first : (sources cfg).find? (fun other => other.name = source.name) = some source)
    (env : SwitchEnv) : (iSetSourceIndexByName help dev source.name env).2.Settled := by
  apply (agrees_iSetSourceIndexByName help settled source.name env).settled
  intro found there
  rw [first] at there
  cases there
  exact regular

theorem first_playlist : (sources cfg).find? (fun other => other.name = OHPlaylistSource.name) =
    some OHPlaylistSource := by
  unfold sources
  rw [List.find?_cons_of_pos]
  decide

theorem first_radio (ohrd : cfg.ohrd = true) :
    (sources cfg).find? (fun other => other.name = OHRadioSource.name) = some OHRadioSource := by
  unfold sources
  rw [if_pos ohrd, List.find?_cons_of_neg (by decide), List.singleton_append,
    List.find?_cons_of_pos (by decide)]

theorem first_receiver (ohrcv : cfg.ohrcv = true) :
    (sources cfg).find? (fun other => other.name = OHReceiverSource.name) =
      some OHReceiverSource := by
  unfold sources
  rw [if_pos ohrcv, List.find?_cons_of_neg (by decide), List.find?_append]
  cases cfg.ohrd with
  | true =>
      rw [if_pos rfl, List.find?_cons_of_neg (by decide), List.find?_cons_of_pos (by decide)]
      rfl
  | false =>
      rw [if_neg Bool.false_ne_true, List.find?_cons_of_pos (by decide)]
      rfl

theorem regular_playlist : Regular cfg OHPlaylistSource := ⟨rfl, by decide⟩

theorem regular_radio (ohrd : cfg.ohrd = true) : Regular cfg OHRadioSource := by
  refine ⟨?_, by decide⟩
  unfold selects
  rw [if_neg (by decide), if_neg (fun both => absurd both.2 (by decide)), if_pos ⟨ohrd, rfl⟩]
  rfl

theorem regular_receiver (ohrcv : cfg.ohrcv = true) : Regular cfg OHReceiverSource := by
  refine ⟨?_, by decide⟩
  unfold selects
  rw [if_neg (by decide), if_pos ⟨ohrcv, rfl⟩]
  rfl

end OHProduct

namespace Device

variable {cfg : SourceConfig} (help : SourceHelp) {dev dev' : Device cfg}

/-- Steps which change neither the source nor which services are active. -/
theorem Settled.keep (settled : dev.Settled) (source : dev'.m_sourceIndex = dev.m_sourceIndex)
    (playlist : dev'.ohpl.m_active = dev.ohpl.m_active)
    (radio : dev'.ohrd.m_active = dev.ohrd.m_active)
    (receiver : dev'.ohrcv.m_active = dev.ohrcv.m_active)
    (playing : dev'.m_radioplaying = dev.m_radioplaying) : dev'.Settled := by
  obtain ⟨coherent, regular⟩ := settled
  have same : dev'.source = dev.source := congrArg (OHProduct.sources cfg).get source
  refine ⟨?_, same ▸ regular⟩
  unfold Coherent
  rw [same]
  exact ⟨playlist.trans coherent.playlist, radio.trans coherent.radio,
    receiver.trans coherent.receiver, (playing.trans coherent.radioPlaying).trans radio.symm⟩

theorem Settled.setWorld (settled : dev.Settled) (w : World) : (dev.setWorld w).Settled :=
  settled.keep rfl rfl rfl rfl rfl

theorem settled_wakePlaylist (settled : dev.Settled) (env : SwitchEnv) :
    (dev.wakePlaylist help env).Settled := by
  unfold wakePlaylist
  split
  · exact settled
  · exact OHProduct.settled_byName help settled OHProduct.regular_playlist
      OHProduct.first_playlist env

theorem settled_wakeWithId (settled : dev.Settled) (id : Int) (env : PlaylistCallEnv) :
    (dev.wakeWithId help id env).2.Settled := by
  unfold wakeWithId
  split
  · exact settled
  · exact (settled_wakePlaylist help settled env.switch).setWorld _

theorem active_insertUri (pl : OHPlaylist) (w : World) (afterid : Int) (uri metadata : String)
    (nocheck : Bool) (env : ActEnv) (active : pl.m_active = true) :
    (pl.insertUri help.toPlaylistHelp w afterid uri metadata nocheck env).2.1.m_active = true := by
  unfold OHPlaylist.insertUri OHPlaylist.startInsert
  rw [if_pos active]
  split
  · exact active
  · rename_i started
    split at started
    · cases started
    · cases started
      exact active

theorem settled_insertUri (settled : dev.Settled) (afterid : Int) (uri metadata : String)
    (nocheck : Bool) (env : PlaylistCallEnv) :
    (dev.insertUri help afterid uri metadata nocheck env).2.Settled := by
  unfold insertUri
  split
  · rename_i active
    have still := active_insertUri help dev.ohpl dev.world afterid uri metadata nocheck
      { insert := env.insert } active
    exact settled.keep rfl (still.trans active.symm) rfl rfl rfl
  · exact settled_wakePlaylist help settled env.switch

theorem settled_callPlaylist (settled : dev.Settled) (env : PlaylistCallEnv)
    (call : PlaylistCall) : (dev.callPlaylist help env call).2.Settled := by
  have woken := settled_wakePlaylist help settled env.switch
  have wokenWithId (id : Int) := settled_wakeWithId help settled id env
  cases call with
  | play => exact woken.setWorld _
  | seekId id =>
      cases id with
      | none => exact settled
      | some id =>
          have found := wokenWithId id
          unfold callPlaylist seekId
          dsimp only
          split <;> rename_i ran <;> rw [ran] at found
          · exact found
          · exact found.setWorld _
  | seekIndex pos =>
      cases pos with
      | none => exact woken
      | some pos => exact woken.setWorld _
  | insert args =>
      cases args with
      | none => exact settled
      | some args =>
          obtain ⟨afterid, uri, metadata⟩ := args
          have found := wokenWithId afterid
          unfold callPlaylist insert
          dsimp only
          split
          · exact settled
          · split <;> rename_i ran <;> rw [ran] at found
            · exact found
            · exact settled_insertUri help found _ _ _ _ env
  | deleteId id =>
      cases id with
      | none => exact settled
      | some id =>
          have found := wokenWithId id
          unfold callPlaylist deleteId
          dsimp only
          split <;> rename_i ran <;> rw [ran] at found
          · exact found
          · exact found.setWorld _
  | deleteAll => exact woken.setWorld _

theorem settled_setOHRadio (settled : dev.Settled) {result : UpnpCode × OHRadio × World}
    (active : result.2.1.m_active = dev.ohrd.m_active) : (dev.setOHRadio result).2.Settled :=
  settled.keep rfl rfl active rfl rfl

theorem settled_callRadio (settled : dev.Settled) (ohrd : cfg.ohrd = true) (env : RadioCallEnv)
    (call : RadioCall) : (dev.callRadio help env call).2.Settled := by
  cases call with
  | play =>
      have woken : (dev.wakeRadio help env.switch).Settled := by
        unfold wakeRadio
        split
        · exact settled
        · exact OHProduct.settled_byName help settled (OHProduct.regular_radio ohrd)
            (OHProduct.first_radio ohrd) env.switch
      exact settled_setOHRadio woken (OHRadio.active_setPlaying _ _ env.play)
  | pause => exact settled_setOHRadio settled rfl
  | stop => exact settled_setOHRadio settled rfl
  | setChannel args => exact settled_setOHRadio settled (OHRadio.active_setChannel _ _ args env.cmd)
  | setId id => exact settled_setOHRadio settled (OHRadio.active_setId _ _ id env.cmd)

theorem settled_setOHReceiver (settled : dev.Settled) {result : OHReceiver × World}
    (active : result.1.m_active = dev.ohrcv.m_active) : (dev.setOHReceiver result).Settled :=
  settled.keep rfl rfl rfl active rfl

theorem settled_callReceiver (settled : dev.Settled) (ohrcv : cfg.ohrcv = true)
    (env : ReceiverCallEnv) (call : ReceiverCall) :
    (dev.callReceiver help env call).2.Settled := by
  cases call with
  | play =>
      have woken : (dev.wakeReceiver help env.switch).Settled := by
        unfold wakeReceiver
        split
        · exact settled
        · exact OHProduct.settled_byName help settled (OHProduct.regular_receiver ohrcv)
            (OHProduct.first_receiver ohrcv) env.switch
      exact settled_setOHReceiver woken (OHReceiver.active_iPlay _ _ env.play)
  | stop =>
      have stopped := settled_setOHReceiver settled (dev.ohrcv.active_iStop dev.world env.stop)
      exact OHProduct.settled_byName help stopped OHProduct.regular_playlist
        OHProduct.first_playlist env.switch
  | setSender args =>
      cases args with
      | none => exact settled
      | some args => exact settled_setOHReceiver settled (OHReceiver.active_iSetSender _ _ _ _ _)

theorem agrees_step {action : SourceAct} {code : UpnpCode} (settled : dev.Settled)
    (taken : dev.step help action = some (dev', code)) : dev'.Agrees (asked cfg action) := by
  cases action with
  | setSourceIndex value env =>
      cases taken
      cases value with
      | none => exact settled.agrees
      | some sindex => exact OHProduct.agrees_iSetSourceIndex help settled sindex env
  | setSourceIndexByName value env =>
      cases taken
      cases value with
      | none => exact settled.agrees
      | some name => exact OHProduct.agrees_iSetSourceIndexByName help settled name env
  | playlist call env =>
      cases taken
      exact (settled_callPlaylist help settled env call).agrees
  | radio call env =>
      simp only [step] at taken
      split at taken
      · rename_i ohrd
        cases taken
        exact (settled_callRadio help settled ohrd env call).agrees
      · cases taken
  | receiver call env =>
      simp only [step] at taken
      split at taken
      · rename_i ohrcv
        cases taken
        exact (settled_callReceiver help settled ohrcv env call).agrees
      · cases taken
  | mpd which w =>
      cases taken
      have kept : Settled { dev with mpds := dev.mpds.put w which } :=
        settled.keep rfl rfl rfl rfl rfl
      exact kept.agrees

/-- The device when it has been built, before the constructor restores the saved source with
`iSetSourceIndexByName`. -/
def built (cfg : SourceConfig) (ohpl : OHPlaylist) (ohrd : OHRadio) (ohrcv : OHReceiver)
    (w : World) : Device cfg where
  ohpl := { ohpl with m_active := true }
  ohrd := { ohrd with m_active := false }
  ohrcv := { ohrcv with m_active := false, m_pm := cfg.playMethod }
  mpds := { main := w }

theorem settled_built (cfg : SourceConfig) (ohpl : OHPlaylist) (ohrd : OHRadio)
    (ohrcv : OHReceiver) (w : World) : (built cfg ohpl ohrd ohrcv w).Settled := by
  have source : (built cfg ohpl ohrd ohrcv w).source = OHProduct.OHPlaylistSource := rfl
  unfold Settled Coherent
  rw [source]
  exact ⟨⟨rfl, rfl, rfl, rfl⟩, OHProduct.regular_playlist⟩

/-- The services stay together in exactly the runs which only ask for regular sources. -/
theorem coherent_iff_safe (cfg : SourceConfig) (help : SourceHelp) (ohpl : OHPlaylist)
    (ohrd : OHRadio) (ohrcv : OHReceiver) (w : World) (actions : List SourceAct) :
    (built cfg ohpl ohrd ohrcv w).Coherent ∧
      (Machine.Along (fun _ _ dev _ => dev.Coherent) (step help) (built cfg ohpl ohrd ohrcv w)
          actions ↔
        Machine.Along Safe (step help) (built cfg ohpl ohrd ohrcv w) actions) := by
  have start := settled_built cfg ohpl ohrd ohrcv w
  refine ⟨start.1, Machine.along_iff_of_invariant ?_ _ _ start⟩
  intro dev action dev' code settled taken
  exact agrees_step help settled taken

instance (dev : Device cfg) (service : Option SourceService) (playing : Bool) :
    Decidable (dev.Shows service playing) :=
  decidable_of_iff
    ((dev.ohpl.m_active = decide (service = some .playlist) ∧
        dev.ohrd.m_active = decide (service = some .radio)) ∧
      dev.ohrcv.m_active = decide (service = some .receiver) ∧ dev.m_radioplaying = playing)
    ⟨fun ⟨⟨playlist, radio⟩, receiver, flag⟩ => ⟨playlist, radio, receiver, flag⟩,
      fun ⟨playlist, radio, receiver, flag⟩ => ⟨⟨playlist, radio⟩, receiver, flag⟩⟩

instance (dev : Device cfg) : Decidable dev.Coherent := inferInstanceAs (Decidable (Shows _ _ _))

/-- The radio for the sender becomes the source without the flag. A script which has the name
of the radio makes the service active with it, and leaving the script does not stop it. -/
theorem sender_not_coherent :
    let cfg : SourceConfig :=
      { ohrcv := true, playMethod := .alsa, sndrcv := true, scripts := [("Analog-Radio", true)] }
    let help : SourceHelp := ⟨.plain, id⟩
    ¬ Machine.Along (fun _ _ dev _ => dev.Coherent) (step help) (built cfg {} {} {} {})
        [.setSourceIndexByName (some "RD-to-Songcast") {}] ∧
      ¬ Machine.Along (fun _ _ dev _ => dev.Coherent) (step help) (built cfg {} {} {} {})
        [.setSourceIndex (some 5) {}] := by
  decide

end Device

end Upmpdcli
