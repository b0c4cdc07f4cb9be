import DistributedFilesystem.AttributeSections
import DistributedFilesystem.ServerSections

/-!
# Cached attributes and the server

While every step is careful, whatever a client has in `cached_attr` is up to
date: it is on the server, or the client will be told of a change.  So it is on
the server once no call is in progress and the notifications have been processed.
-/

namespace DistributedFilesystem

namespace AttrCluster

/-- The invariant. -/
structure Coherent (members : Set ClientId) (σ : AttrCluster) : Prop
    extends Cluster.Subscribed members σ.toCluster where
  ownsNodes : ∀ client ∈ members, (σ.clients client).OwnsNodes
  fits : ∀ client ∈ members, ∀ path,
    (σ.calls client path).Fits path (σ.clients client)
  upToDate : ∀ client ∈ members, ∀ path size mtime,
    σ.Knows client path size mtime → σ.UpToDate client path size mtime

section Steps

variable {members : Set ClientId} {σ : AttrCluster} {client other : ClientId}
variable {path otherPath : Path} {size mtime : Int} {answers : LocalAnswers}
variable {result : Client × Server × CallPhase}

theorem coherent_of_starts (starts : σ.Starts members) : σ.Coherent members where
  toSubscribed := starts.toSubscribed
  ownsNodes client member path streams opened := by
    simp [starts.closed client member path] at opened
  fits client member path := by
    rw [starts.idle client member path]
    trivial
  upToDate client member path size mtime knows := by
    rcases knows with ⟨-, attr, entered, -⟩ | expects | ⟨thread, attr, carries, -⟩
    · simp [starts.noAttributes client member path] at entered
    · rw [starts.idle client member path] at expects
      exact expects.elim
    · simp [Lookup.Carries, starts.noLookups thread] at carries

/-- What a client knows of another file than the one of the section. -/
theorem knows_afterSection_ne
    (same : Client.SameElsewhere path (σ.clients client) result.1)
    (apart : other = client → otherPath ≠ path)
    (knows : (σ.withCluster (σ.afterSection client path result)).Knows other
      otherPath size mtime) :
    σ.Knows other otherPath size mtime := by
  simp only [Knows, Expects, withCluster, Cluster.afterSection] at knows
  by_cases sameClient : other = client
  · subst sameClient
    have different := apart rfl
    simp only [Function.update_self, Function.update_of_ne different] at knows
    exact knows.imp (holds_of_sameElsewhere same different).mp
      (Or.imp_left (expects_congr (same.read otherPath different)).mp)
  · simp only [Function.update_of_ne sameClient] at knows
    exact knows

theorem waiting_afterSection (isSubscribed : Cluster.Subscribed members σ.toCluster)
    (effect : SectionEffect path (σ.clients client) σ.server result)
    (isMember : other ∈ members) (waiting : σ.Waiting other otherPath) :
    (σ.afterSection client path result).Waiting other otherPath := by
  obtain ⟨notes, pending⟩ :=
    effect.watch.pending other (isSubscribed.subscribed other isMember)
  exact Cluster.waiting_of_pending pending waiting

theorem told_afterSection (isSubscribed : Cluster.Subscribed members σ.toCluster)
    (member : client ∈ members) (isMember : other ∈ members)
    (advances : (σ.calls client path).advance answers path (σ.clients client)
      σ.server = some result)
    (kept : other = client → otherPath = path → σ.calls client path ≠ .removed)
    (told : σ.Told other otherPath) :
    (σ.withCluster (σ.afterSection client path result)).Told other otherPath := by
  have effect := sectionEffect_of_advance advances
  rcases told with waiting | ⟨registered, notifier, different, notifies⟩
  · exact .inl (waiting_afterSection isSubscribed effect isMember waiting)
  by_cases now : notifier = client ∧ otherPath = path
  · obtain ⟨rfl, rfl⟩ := now
    rcases willNotify_of_advance notifies advances with announces | ⟨same, will⟩
    · rw [isSubscribed.clientIds notifier member] at announces
      obtain ⟨notes, pending, about, announced⟩ :=
        announces.pending other (isSubscribed.subscribed other isMember)
      obtain ⟨note, isNote⟩ := List.exists_mem_of_ne_nil notes
        (announced registered different.symm)
      refine .inl ⟨note, ?_, about note isNote⟩
      simp [Cluster.undelivered, withCluster, Cluster.afterSection, pending,
        isNote]
    · refine .inr ⟨?_, notifier, different, ?_⟩
      · simpa [withCluster, Cluster.afterSection, same] using registered
      · simpa [withCluster, Cluster.afterSection] using will
  · have still := @Cluster.calls_afterSection_of_ne σ.toCluster client notifier
      path otherPath result now
    rw [← still] at notifies
    by_cases own : other = client ∧ otherPath = path
    · obtain ⟨rfl, rfl⟩ := own
      have stays := registered_of_advance (kept rfl rfl) advances registered
      exact .inr ⟨stays, notifier, different, notifies⟩
    · have watches := Cluster.watches_afterSection isSubscribed member effect
        isMember (fun same samePath => own ⟨same, samePath⟩) (.inl registered)
      exact watches.symm.imp_right fun stays =>
        ⟨stays, notifier, different, notifies⟩

theorem upToDate_afterSection
    (isSubscribed : Cluster.Subscribed members σ.toCluster)
    (member : client ∈ members) (isMember : other ∈ members)
    (advances : (σ.calls client path).advance answers path (σ.clients client)
      σ.server = some result)
    (kept : other = client → otherPath = path → σ.calls client path ≠ .removed)
    (spared : result.2.1.Shows otherPath size mtime ↔
      σ.server.Shows otherPath size mtime)
    (upToDate : σ.UpToDate other otherPath size mtime) :
    (σ.withCluster (σ.afterSection client path result)).UpToDate other otherPath
      size mtime :=
  upToDate.imp spared.mpr
    (told_afterSection isSubscribed member isMember advances kept)

/-- What a client knows after a section of its own. -/
theorem knows_of_advance (coherent : σ.Coherent members)
    (member : client ∈ members)
    (advances : (σ.calls client path).advance answers path (σ.clients client)
      σ.server = some result)
    (knows : (σ.withCluster (σ.afterSection client path result)).Knows client path
      size mtime) :
    σ.Knows client path size mtime ∨ result.2.1.Shows path size mtime ∨
      (∃ left status, σ.calls client path = .answered left [] status) ∧
        (σ.clients client).cachedAttr path ≠ none := by
  have fits := coherent.fits client member path
  simp only [Knows, Expects, withCluster, Cluster.afterSection,
    Function.update_self] at knows
  rcases knows with holds | expects | lookedUp
  · rcases holds_of_advance fits advances holds with held | expected | empty
    · exact .inl (.inl held)
    · exact .inl (.inr (.inl expected))
    · exact .inr (.inr empty)
  · rcases expects_of_advance fits advances expects with expected | shows
    · exact .inl (.inr (.inl expected))
    · exact .inr (.inl shows)
  · exact .inl (.inr (.inr lookedUp))

/-- A section that changes the file is told to the clients that watch it. -/
theorem upToDate_of_change (coherent : σ.Coherent members)
    (member : client ∈ members) (isMember : other ∈ members)
    (advances : (σ.calls client path).advance answers path (σ.clients client)
      σ.server = some result)
    (changes : (σ.calls client path).Changes)
    (watch : σ.OthersWatch path members client)
    (knows : (σ.withCluster (σ.afterSection client path result)).Knows other path
      size mtime) :
    (σ.withCluster (σ.afterSection client path result)).UpToDate other path size
      mtime := by
  have effect := sectionEffect_of_advance advances
  by_cases own : other = client
  · subst own
    rcases knows_of_advance coherent isMember advances knows with
      knew | shows | ⟨⟨left, status, answered⟩, -⟩
    · exact ((watch other isMember size mtime knew).1 rfl).elim
    · exact .inl shows
    · rw [answered] at changes
      exact changes.elim
  · have knew := knows_afterSection_ne (sameElsewhere_of_advance advances)
      (fun same => (own same).elim) knows
    rcases notifies_of_advance changes advances with unchanged | ⟨fileMap, notifies⟩
    · apply upToDate_afterSection coherent.toSubscribed member isMember advances
        (fun same => (own same).elim)
      · rw [unchanged]
      · exact coherent.upToDate other isMember path size mtime knew
    · right
      rcases (watch other isMember size mtime knew).2 with registered | waiting
      · refine .inr ⟨?_, client, Ne.symm own, ?_⟩
        · simpa [withCluster, Cluster.afterSection, fileMap] using registered
        · simpa [withCluster, Cluster.afterSection] using notifies.willNotify
      · exact .inl (waiting_afterSection coherent.toSubscribed effect isMember
          waiting)

/-- A section that leaves the files alone. -/
theorem upToDate_of_advance (coherent : σ.Coherent members)
    (member : client ∈ members) (isMember : other ∈ members)
    (advances : (σ.calls client path).advance answers path (σ.clients client)
      σ.server = some result)
    (spares : ¬ (σ.calls client path).Changes)
    (erases : σ.calls client path = .removed → σ.Announced client path →
      σ.Waiting client path ∨ ∀ size mtime,
        σ.Knows client path size mtime → σ.server.Shows path size mtime)
    (empties : ∀ left status, σ.calls client path = .answered left [] status →
      (σ.clients client).cachedAttr path = none ∨ σ.Told client path)
    (knows : (σ.withCluster (σ.afterSection client path result)).Knows other path
      size mtime) :
    (σ.withCluster (σ.afterSection client path result)).UpToDate other path size
      mtime := by
  have disk := disk_of_advance spares advances
  have spared : result.2.1.Shows path size mtime ↔
      σ.server.Shows path size mtime := by
    apply shows_congr <;> rw [disk]
  have effect := sectionEffect_of_advance advances
  by_cases own : other = client
  · subst own
    rcases knows_of_advance coherent isMember advances knows with
      knew | shows | ⟨⟨left, status, answered⟩, entered⟩
    · have upToDate := coherent.upToDate other isMember path size mtime knew
      by_cases erased : σ.calls other path = .removed
      · rcases upToDate with shows | waiting | announced
        · exact .inl (spared.mpr shows)
        · exact .inr (.inl (waiting_afterSection coherent.toSubscribed effect
            isMember waiting))
        · rcases erases erased announced with waiting | right
          · exact .inr (.inl (waiting_afterSection coherent.toSubscribed effect
              isMember waiting))
          · exact .inl (spared.mpr (right size mtime knew))
      · exact upToDate_afterSection coherent.toSubscribed member isMember advances
          (fun _ _ => erased) spared upToDate
    · exact .inl shows
    · have told := (empties left status answered).resolve_left entered
      have kept : σ.calls other path ≠ .removed := by
        rw [answered]
        simp
      exact .inr (told_afterSection coherent.toSubscribed member isMember advances
        (fun _ _ => kept) told)
  · have knew := knows_afterSection_ne (sameElsewhere_of_advance advances)
      (fun same => (own same).elim) knows
    apply upToDate_afterSection coherent.toSubscribed member isMember advances
      (fun same => (own same).elim) spared
    exact coherent.upToDate other isMember path size mtime knew

/-- The local invariants after a section of a call. -/
theorem fits_afterSection (coherent : σ.Coherent members)
    (same : Client.SameElsewhere path (σ.clients client) result.1)
    (fits : result.2.2.Fits path result.1) (isMember : other ∈ members)
    (otherPath : Path) :
    ((σ.afterSection client path result).calls other otherPath).Fits otherPath
      ((σ.afterSection client path result).clients other) := by
  simp only [Cluster.afterSection]
  by_cases sameClient : other = client
  · subst sameClient
    simp only [Function.update_self]
    by_cases samePath : otherPath = path
    · subst samePath
      rw [Function.update_self]
      exact fits
    · rw [Function.update_of_ne samePath]
      exact fits_of_sameElsewhere same samePath
        (coherent.fits other isMember otherPath)
  · simp only [Function.update_of_ne sameClient]
    exact coherent.fits other isMember otherPath

theorem ownsNodes_afterSection (coherent : σ.Coherent members)
    (owns : result.1.OwnsNodes) (isMember : other ∈ members) :
    ((σ.afterSection client path result).clients other).OwnsNodes := by
  simp only [Cluster.afterSection]
  by_cases sameClient : other = client
  · subst sameClient
    rw [Function.update_self]
    exact owns
  · rw [Function.update_of_ne sameClient]
    exact coherent.ownsNodes other isMember

theorem coherent_of_advance (coherent : σ.Coherent members)
    (careful : (AttrEvent.file (.advance client path answers)).Careful members σ)
    (advances : (σ.calls client path).advance answers path (σ.clients client)
      σ.server = some result) :
    (σ.withCluster (σ.afterSection client path result)).Coherent members := by
  obtain ⟨member, watch, erases, empties⟩ := careful
  have same := sameElsewhere_of_advance advances
  have owns := ownsNodes_of_advance advances (coherent.ownsNodes client member)
  have fits := fits_of_advance (coherent.fits client member path) advances
  constructor
  · exact Cluster.subscribed_afterSection coherent.toSubscribed
      (sectionEffect_of_advance advances)
  · exact fun other isMember => ownsNodes_afterSection coherent owns isMember
  · exact fun other isMember => fits_afterSection coherent same fits isMember
  · intro other isMember otherPath size mtime knows
    by_cases onPath : otherPath = path
    · subst onPath
      by_cases changes : (σ.calls client otherPath).Changes
      · exact upToDate_of_change coherent member isMember advances changes
          (watch changes) knows
      · exact upToDate_of_advance coherent member isMember advances changes erases
          empties knows
    · have knew := knows_afterSection_ne same (fun _ => onPath) knows
      apply upToDate_afterSection coherent.toSubscribed member isMember advances
        (fun _ samePath => (onPath samePath).elim)
        (shows_of_advance_ne onPath advances)
      exact coherent.upToDate other isMember otherPath size mtime knew

/-- A section that leaves the registrations and the queues alone, of a call that
will still notify the clients if it would. -/
theorem told_of_spares
    (subscribers : result.2.1.subscribers = σ.server.subscribers)
    (queues : result.2.1.queues = σ.server.queues)
    (fileMap : result.2.1.fileMap = σ.server.fileMap)
    (keeps : (σ.calls client path).WillNotify → result.2.2.WillNotify)
    (told : σ.Told other otherPath) :
    (σ.withCluster (σ.afterSection client path result)).Told other otherPath := by
  rcases told with
    ⟨note, undelivered, about⟩ | ⟨registered, notifier, different, will⟩
  · refine .inl ⟨note, ?_, about⟩
    simpa [Cluster.undelivered, withCluster, Cluster.afterSection,
      Server.pending_congr subscribers queues] using undelivered
  · refine .inr ⟨?_, notifier, different, ?_⟩
    · simpa [withCluster, Cluster.afterSection, fileMap] using registered
    · by_cases own : notifier = client ∧ otherPath = path
      · obtain ⟨rfl, rfl⟩ := own
        rw [withCluster, Cluster.calls_afterSection]
        exact keeps will
      · rw [withCluster, Cluster.calls_afterSection_of_ne own]
        exact will

theorem coherent_of_start (coherent : σ.Coherent members)
    (member : client ∈ members) {call : FileCall} (noCreate : call ≠ .createFile)
    (idle : σ.calls client path = .idle) :
    (σ.withCluster (σ.afterSection client path
      ((call.begin answers path (σ.clients client)).1, σ.server,
        (call.begin answers path (σ.clients client)).2))).Coherent members := by
  have owned := coherent.ownsNodes client member
  have same : Client.SameElsewhere path (σ.clients client)
      (call.begin answers path (σ.clients client)).1 :=
    sameElsewhere_begin owned call
  have owns : (call.begin answers path (σ.clients client)).1.OwnsNodes :=
    ownsNodes_begin call owned
  constructor
  · apply Cluster.subscribed_afterSection coherent.toSubscribed
    exact ⟨sameEntries_begin call, .refl ..⟩
  · exact fun other isMember => ownsNodes_afterSection coherent owns isMember
  · exact fun other isMember =>
      fits_afterSection coherent same (fits_begin call noCreate) isMember
  · intro other isMember otherPath size mtime knows
    have knew : σ.Knows other otherPath size mtime := by
      by_cases own : other = client ∧ otherPath = path
      · obtain ⟨rfl, rfl⟩ := own
        simp only [Knows, Expects, withCluster, Cluster.afterSection,
          Function.update_self] at knows
        rcases knows with holds | expects | lookedUp
        · exact .inl (holds_of_begin call noCreate holds)
        · exact (not_expects_begin call noCreate expects).elim
        · exact .inr (.inr lookedUp)
      · exact knows_afterSection_ne same
          (fun sameClient samePath => own ⟨sameClient, samePath⟩) knows
    refine (coherent.upToDate other isMember otherPath size mtime knew).imp_right
      (told_of_spares rfl rfl rfl ?_)
    rw [idle]
    exact False.elim

theorem coherent_of_send (coherent : σ.Coherent members) {note : Notification}
    {s : Server} (pops : σ.server.popNotification client = some (note, s)) :
    (σ.withCluster { σ with
      server := s
      inFlight := Function.update σ.inFlight client
        (σ.inFlight client ++ [note]) }).Coherent members := by
  obtain ⟨disk, fileMap, -⟩ := Server.popNotification_eq_some pops
  constructor
  · exact Cluster.subscribed_of_send coherent.toSubscribed pops
  · exact coherent.ownsNodes
  · exact coherent.fits
  · intro other isMember otherPath size mtime knows
    have undelivered := Cluster.undelivered_of_send coherent.toSubscribed pops
    rcases coherent.upToDate other isMember otherPath size mtime knows with
      shows | waiting | announced
    · left
      simpa [withCluster, Server.Shows, disk] using shows
    · right; left
      unfold Cluster.Waiting
      rw [withCluster, undelivered]
      exact waiting
    · right; right
      simpa [withCluster, Announced, fileMap] using announced

theorem coherent_of_tick (coherent : σ.Coherent members) (now : Int) :
    (σ.withCluster { σ with
      server := { σ.server with clock := now } }).Coherent members :=
  ⟨⟨coherent.clientIds, coherent.subscribed, coherent.ownQueues⟩,
    coherent.ownsNodes, coherent.fits, coherent.upToDate⟩

/-- A notification evicts what the client holds, unless the file is open or not
in the cache. -/
theorem holds_of_processNotification {client : Client} {note : Notification}
    (holds : (client.processNotification note).Holds note.directory size mtime) :
    client.Holds note.directory size mtime ∧
      (client.openedFiles note.directory ≠ none ∨
        client.cache note.directory = none) := by
  unfold Client.processNotification at holds
  split at holds
  · next streams opened => exact ⟨holds, .inl (by simp [opened])⟩
  · split at holds
    · obtain ⟨-, attr, entered, -⟩ := holds
      simp [Client.eraseAttr] at entered
    · next notCached => exact ⟨holds, .inr notCached⟩

theorem fits_processNotification {client : Client} {note : Notification}
    {phase : CallPhase} (fits : phase.Fits note.directory client) :
    phase.Fits note.directory (client.processNotification note) := by
  cases opened : client.openedFiles note.directory with
  | some streams =>
      rw [Client.processNotification_of_open (by simp [opened])]
      exact fits
  | none =>
      have notCached := Client.cache_processNotification_of_closed opened
      cases phase with
      | entered => simp [CallPhase.Fits, notCached]
      | uploading requests => simp [CallPhase.Fits, Client.OpenModified, opened] at fits
      | received _ | uploaded _ =>
          simpa [CallPhase.Fits] using fits
      | _ => exact fits

theorem told_of_deliver {note : Notification} {notes : List Notification}
    (inFlight : σ.inFlight client = note :: notes) (clients : ClientId → Client)
    (apart : other = client → otherPath ≠ note.directory)
    (told : σ.Told other otherPath) :
    (σ.withCluster { σ with
      clients := clients
      inFlight := Function.update σ.inFlight client notes }).Told other
      otherPath :=
  told.imp_left (Cluster.waiting_of_deliver inFlight clients apart)

theorem coherent_of_deliver (coherent : σ.Coherent members)
    (careful : (AttrEvent.file (.deliver client)).Careful members σ)
    {note : Notification} {notes : List Notification}
    (inFlight : σ.inFlight client = note :: notes) :
    (σ.withCluster { σ with
      clients := Function.update σ.clients client
        ((σ.clients client).processNotification note)
      inFlight := Function.update σ.inFlight client notes }).Coherent members := by
  obtain ⟨member, keeps⟩ := careful
  have same :=
    Client.sameElsewhere_processNotification (σ.clients client) note
  constructor
  · exact Cluster.subscribed_of_deliver coherent.toSubscribed
  · intro other isMember
    simp only [withCluster]
    by_cases sameClient : other = client
    · subst sameClient
      rw [Function.update_self]
      intro path streams opened
      rw [Client.processNotification_openedFiles] at opened
      rw [Client.processNotification_disk]
      exact coherent.ownsNodes other isMember path streams opened
    · rw [Function.update_of_ne sameClient]
      exact coherent.ownsNodes other isMember
  · intro other isMember otherPath
    have fits := coherent.fits other isMember otherPath
    simp only [withCluster]
    by_cases sameClient : other = client
    · subst sameClient
      rw [Function.update_self]
      by_cases samePath : otherPath = note.directory
      · subst samePath
        exact fits_processNotification fits
      · exact fits_of_sameElsewhere same samePath fits
    · rw [Function.update_of_ne sameClient]
      exact fits
  · intro other isMember otherPath size mtime knows
    by_cases own : other = client ∧ otherPath = note.directory
    · obtain ⟨rfl, rfl⟩ := own
      apply keeps note notes inFlight
      simp only [Knows, Expects, withCluster, Function.update_self] at knows
      rcases knows with holds | expects | lookedUp
      · exact .inr (holds_of_processNotification holds)
      · refine .inl (.inl ((expects_congr ?_).mp expects))
        rw [Client.processNotification_disk]
      · exact .inl (.inr lookedUp)
    · have apart (sameClient : other = client) : otherPath ≠ note.directory :=
        fun samePath => own ⟨sameClient, samePath⟩
      have knew : σ.Knows other otherPath size mtime := by
        simp only [Knows, Expects, withCluster] at knows
        by_cases sameClient : other = client
        · subst sameClient
          have different := apart rfl
          simp only [Function.update_self] at knows
          exact knows.imp (holds_of_sameElsewhere same different).mp
            (Or.imp_left (expects_congr (same.read otherPath different)).mp)
        · simp only [Function.update_of_ne sameClient] at knows
          exact knows
      exact (coherent.upToDate other isMember otherPath size mtime knew).imp_right
        (told_of_deliver inFlight _ apart)

/-! ## The sections of `get_attributes` -/

theorem lookedUp_setLookup {thread : Nat} {lookup : Lookup}
    (lookedUp : (σ.setLookup thread lookup).LookedUp client path size mtime) :
    (∃ attr, lookup.Carries client path attr ∧ attr.size = size ∧
        attr.mtime = mtime) ∨
      σ.LookedUp client path size mtime := by
  obtain ⟨other, attr, carries, isSize, isTime⟩ := lookedUp
  by_cases same : other = thread
  · subst same
    left
    refine ⟨attr, ?_, isSize, isTime⟩
    simpa [setLookup] using carries
  · right
    refine ⟨other, attr, ?_, isSize, isTime⟩
    simpa [setLookup, same] using carries

/-- A `get_attributes` goes on with what is up to date. -/
theorem coherent_setLookup (coherent : σ.Coherent members) {thread : Nat}
    {lookup : Lookup}
    (right : ∀ client ∈ members, ∀ path attr,
      lookup.Carries client path attr →
        σ.UpToDate client path attr.size attr.mtime) :
    (σ.setLookup thread lookup).Coherent members := by
  constructor
  · exact ⟨coherent.clientIds, coherent.subscribed, coherent.ownQueues⟩
  · exact coherent.ownsNodes
  · exact coherent.fits
  · intro client member path size mtime knows
    have upToDate := coherent.upToDate client member path size mtime
    rcases knows with holds | expects | lookedUp
    · exact upToDate (.inl holds)
    · exact upToDate (.inr (.inl expects))
    · rcases lookedUp_setLookup lookedUp with ⟨attr, carries, rfl, rfl⟩ | before
      · exact right client member path attr carries
      · exact upToDate (.inr (.inr before))

/-- What the second `stat` makes of an answer is up to date if what the first
one found is. -/
theorem upToDate_getattrResponse {found : FileAttributes}
    (upToDate : σ.UpToDate client path found.size found.mtime) :
    σ.UpToDate client path (σ.server.getattrResponse path found).size
      (σ.server.getattrResponse path found).mtime := by
  refine upToDate.imp_left ?_
  rintro ⟨contents, read, isSize, -⟩
  exact ⟨contents, read, isSize, rfl⟩

theorem clients_enterAttr (σ : AttrCluster) (client : ClientId) (path : Path)
    (attr : FileAttributes) (other : ClientId) :
    ∃ cachedAttr, (σ.enterAttr client path attr).clients other =
        { σ.clients other with cachedAttr := cachedAttr } ∧
      ∀ otherPath, cachedAttr otherPath = (σ.clients other).cachedAttr otherPath ∨
        other = client ∧ otherPath = path ∧ cachedAttr otherPath = some attr := by
  simp only [enterAttr]
  by_cases sameClient : other = client
  · subst sameClient
    refine ⟨_, Function.update_self .., ?_⟩
    intro otherPath
    by_cases samePath : otherPath = path
    · subst samePath
      exact .inr ⟨rfl, rfl, Function.update_self ..⟩
    · exact .inl (Function.update_of_ne samePath ..)
  · exact ⟨_, Function.update_of_ne sameClient .., fun _ => .inl rfl⟩

/-- It enters what it was about to enter. -/
theorem knows_of_enterAttr {thread : Nat} {attr : FileAttributes}
    (answered : σ.lookups thread = .answered client path attr)
    (knows : (σ.enterAttr client path attr).Knows other otherPath size mtime) :
    σ.Knows other otherPath size mtime := by
  obtain ⟨cachedAttr, eq, entries⟩ := clients_enterAttr σ client path attr other
  rcases knows with holds | expects | lookedUp
  · rw [eq] at holds
    obtain ⟨unmodified, found, isFound, isSize, isTime⟩ := holds
    rcases entries otherPath with same | ⟨rfl, rfl, isAttr⟩
    · exact .inl ⟨unmodified, found, same.symm.trans isFound, isSize, isTime⟩
    · obtain rfl := Option.some.inj (isAttr.symm.trans isFound)
      exact .inr (.inr ⟨thread, attr, .inr answered, isSize, isTime⟩)
  · rw [eq] at expects
    exact .inr (.inl ((expects_congr rfl).mp expects))
  · exact .inr (.inr lookedUp)

theorem coherent_enterAttr (coherent : σ.Coherent members) {thread : Nat}
    {attr : FileAttributes}
    (answered : σ.lookups thread = .answered client path attr) :
    (σ.enterAttr client path attr).Coherent members := by
  constructor
  · refine ⟨?_, coherent.subscribed, coherent.ownQueues⟩
    intro other isMember
    obtain ⟨_, eq, -⟩ := clients_enterAttr σ client path attr other
    rw [eq]
    exact coherent.clientIds other isMember
  · intro other isMember
    obtain ⟨_, eq, -⟩ := clients_enterAttr σ client path attr other
    rw [eq]
    exact coherent.ownsNodes other isMember
  · intro other isMember otherPath
    obtain ⟨_, eq, -⟩ := clients_enterAttr σ client path attr other
    rw [eq]
    exact fits_of_cachedAttr (coherent.fits other isMember otherPath)
  · intro other isMember otherPath size mtime knows
    exact coherent.upToDate other isMember otherPath size mtime
      (knows_of_enterAttr answered knows)

/-! ## Handlers that work on the same file -/

section Handle

variable {server : Server} {phase : CallPhase}

theorem clients_handle :
    (σ.handle client path server phase).clients = σ.clients := by
  simp [handle, withCluster, Cluster.afterSection]

theorem knows_handle
    (knows : (σ.handle client path server phase).Knows other otherPath size
      mtime) :
    (other = client ∧ otherPath = path ∧
        phase.Expects path (σ.clients client) size mtime) ∨
      σ.Knows other otherPath size mtime := by
  unfold Knows Expects at knows
  rw [clients_handle] at knows
  rcases knows with holds | expects | lookedUp
  · exact .inr (.inl holds)
  · by_cases own : other = client ∧ otherPath = path
    · obtain ⟨rfl, rfl⟩ := own
      refine .inl ⟨rfl, rfl, ?_⟩
      rwa [handle, withCluster, Cluster.calls_afterSection] at expects
    · refine .inr (.inr (.inl ?_))
      rwa [handle, withCluster, Cluster.calls_afterSection_of_ne own] at expects
  · exact .inr (.inr (.inr lookedUp))

theorem coherent_handle (coherent : σ.Coherent members)
    (subscribers : server.subscribers = σ.server.subscribers)
    (queues : server.queues = σ.server.queues)
    (fileMap : server.fileMap = σ.server.fileMap)
    (fits : phase.Fits path (σ.clients client))
    (upToDate : ∀ other ∈ members, ∀ otherPath size mtime,
      (σ.handle client path server phase).Knows other otherPath size mtime →
        (σ.handle client path server phase).UpToDate other otherPath size
          mtime) :
    (σ.handle client path server phase).Coherent members := by
  constructor
  · apply Cluster.subscribed_afterSection coherent.toSubscribed
    refine ⟨.refl .., keepsWatch_of_registered subscribers queues ?_⟩
    intro _ _ registered
    rwa [fileMap]
  · intro other isMember
    rw [clients_handle]
    exact coherent.ownsNodes other isMember
  · intro other isMember
    exact fits_afterSection coherent (.refl ..) fits isMember
  · exact upToDate

/-- A handler that changes nothing, of a call whose client is going to be
told. -/
theorem coherent_handle_of_told (coherent : σ.Coherent members)
    (told : σ.Told client path)
    (keeps : (σ.calls client path).WillNotify → phase.WillNotify)
    (fits : phase.Fits path (σ.clients client)) :
    (σ.handle client path σ.server phase).Coherent members := by
  refine coherent_handle coherent rfl rfl rfl fits ?_
  intro other isMember otherPath size mtime knows
  rcases knows_handle knows with ⟨rfl, rfl, -⟩ | knew
  · exact .inr (told_of_spares rfl rfl rfl keeps told)
  · exact (coherent.upToDate other isMember otherPath size mtime knew).imp_right
      (told_of_spares rfl rfl rfl keeps)

/-- While an upload changes the file, whoever knows it is going to be told. -/
theorem coherent_overwrite (coherent : σ.Coherent members)
    (careful : client ∈ members ∧ σ.OthersWatch path members client)
    {requests : List FileRequest}
    (uploading : σ.calls client path = .uploading requests)
    (stored : List FileRequest) :
    (σ.handle client path (σ.server.receiveFile path stored)
      (.uploading requests)).Coherent members := by
  obtain ⟨member, watch⟩ := careful
  have fits := coherent.fits client member path
  rw [uploading] at fits
  refine coherent_handle coherent rfl rfl rfl fits ?_
  intro other isMember otherPath size mtime knows
  have knew := (knows_handle knows).resolve_left fun own => own.2.2
  by_cases samePath : otherPath = path
  · subst samePath
    obtain ⟨apart, watches⟩ := watch other isMember size mtime knew
    right
    rcases watches with registered | ⟨note, undelivered, about⟩
    · refine .inr ⟨registered, client, apart.symm, ?_⟩
      simp [handle, withCluster, Cluster.afterSection, CallPhase.WillNotify]
    · exact .inl ⟨note, undelivered, about⟩
  · have spared : (σ.server.receiveFile path stored).Shows otherPath size mtime ↔
        σ.server.Shows otherPath size mtime := by
      apply shows_congr
      · exact Server.read_receiveFile_ne _ samePath stored
      · exact FileStore.modifiedAt_replace_ne samePath ..
    exact (coherent.upToDate other isMember otherPath size mtime knew).imp
      spared.mpr (told_of_spares rfl rfl rfl fun _ => trivial)

end Handle

end Steps

end AttrCluster

theorem coherent_of_clusterEvent {members : Set ClientId} {event : ClusterEvent}
    {σ : AttrCluster} {cluster : Cluster}
    (careful : (AttrEvent.file event).Careful members σ)
    (coherent : σ.Coherent members)
    (steps : event.step σ.toCluster = some cluster) :
    (σ.withCluster cluster).Coherent members := by
  cases event with
  | start client path call answers =>
      simp only [ClusterEvent.step] at steps
      split at steps
      · next idle =>
          obtain rfl := Option.some.inj steps
          exact AttrCluster.coherent_of_start coherent careful.1 careful.2 idle
      · simp at steps
  | advance client path answers =>
      obtain ⟨result, advances, rfl⟩ := Option.map_eq_some_iff.mp steps
      exact AttrCluster.coherent_of_advance coherent careful advances
  | send client =>
      obtain ⟨⟨note, s⟩, pops, rfl⟩ := Option.map_eq_some_iff.mp steps
      exact AttrCluster.coherent_of_send coherent pops
  | deliver client =>
      simp only [ClusterEvent.step] at steps
      split at steps
      · simp at steps
      · next note notes inFlight =>
          obtain rfl := Option.some.inj steps
          exact AttrCluster.coherent_of_deliver coherent careful inFlight
  | tick now =>
      obtain rfl := Option.some.inj steps
      exact AttrCluster.coherent_of_tick coherent now

theorem shows_of_statHandler {s : Server} {path : Path}
    (ok : (s.statHandler path .success).2.isOk) :
    s.Shows path (s.statHandler path .success).1.size
      (s.statHandler path .success).1.mtime := by
  cases stats : s.statHandler path .success with
  | mk found status =>
      rw [stats] at ok
      obtain ⟨contents, read, rfl⟩ := Server.statHandler_ok stats ok
      exact ⟨contents, read, rfl, rfl⟩

theorem coherent_of_step {members : Set ClientId} {event : AttrEvent}
    {σ τ : AttrCluster} (careful : event.Careful members σ)
    (coherent : σ.Coherent members) (steps : event.step σ = some τ) :
    τ.Coherent members := by
  cases event with
  | file event =>
      obtain ⟨cluster, clusterSteps, rfl⟩ := Option.map_eq_some_iff.mp steps
      exact coherent_of_clusterEvent careful coherent clusterSteps
  | lookUp thread client path =>
      simp only [AttrEvent.step] at steps
      split at steps
      · split at steps
        · obtain rfl := Option.some.inj steps
          exact coherent
        · obtain rfl := Option.some.inj steps
          apply AttrCluster.coherent_setLookup coherent
          intro _ _ _ _ carries
          simp [Lookup.Carries] at carries
      · simp at steps
  | stat thread =>
      simp only [AttrEvent.step] at steps
      split at steps
      · next client path asking =>
          obtain rfl := Option.some.inj steps
          apply AttrCluster.coherent_setLookup coherent
          intro client' member path' attr carries
          split at carries
          · next ok =>
              obtain ⟨rfl, rfl, rfl⟩ := by simpa [Lookup.Carries] using carries
              exact .inl (shows_of_statHandler ok)
          · simp [Lookup.Carries] at carries
      · simp at steps
  | answer thread =>
      simp only [AttrEvent.step] at steps
      split at steps
      · next client path found sized =>
          obtain rfl := Option.some.inj steps
          apply AttrCluster.coherent_setLookup coherent
          intro client' member path' attr carries
          obtain ⟨rfl, rfl, rfl⟩ := by simpa [Lookup.Carries] using carries
          apply AttrCluster.upToDate_getattrResponse
          apply coherent.upToDate client member path
          exact .inr (.inr ⟨thread, found, .inl sized, rfl, rfl⟩)
      · simp at steps
  | finish thread =>
      simp only [AttrEvent.step] at steps
      split at steps
      · next client path attr answered =>
          obtain rfl := Option.some.inj steps
          apply AttrCluster.coherent_setLookup
            (AttrCluster.coherent_enterAttr coherent answered)
          intro _ _ _ _ carries
          simp [Lookup.Carries] at carries
      · simp at steps
  | overwrite client path stored =>
      simp only [AttrEvent.step] at steps
      split at steps
      · next requests uploading =>
          obtain rfl := Option.some.inj steps
          exact AttrCluster.coherent_overwrite coherent careful uploading stored
      · simp at steps
  | endMixed client path =>
      simp only [AttrEvent.step] at steps
      split at steps
      · next requests uploading =>
          obtain rfl := Option.some.inj steps
          have fits := coherent.fits client careful.1 path
          rw [uploading] at fits
          apply AttrCluster.coherent_handle_of_told coherent careful.2
          · exact fun _ => trivial
          · simp [CallPhase.Fits, fits.2]
      · simp at steps
  | sendMixed client path responses =>
      simp only [AttrEvent.step] at steps
      split at steps
      · next left reading =>
          obtain rfl := Option.some.inj steps
          apply AttrCluster.coherent_handle_of_told coherent careful.2
          · rw [reading]
            exact False.elim
          · trivial
      · simp at steps

end DistributedFilesystem
