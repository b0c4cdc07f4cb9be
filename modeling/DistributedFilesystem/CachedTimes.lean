import DistributedFilesystem.CachedSizes
import DistributedFilesystem.FileTimes

/-!
# Cached times and seen versions

The modification time that a client reports for a file is the one in
`cachedAttr`.  It should be the time of the last version of the file that the
client has seen, in nanoseconds.  `create_file` stores seconds instead, and
`open_file` stores the timestamp of the last chunk of each attempt, or 0 if no
chunk arrived, whether the attempt succeeded or not.
-/

namespace DistributedFilesystem

open TransitionRuns Remote

/-- The modification times of the versions of the files that a client has seen
last, in nanoseconds. -/
abbrev Seen := Path → Option Int

/-- The version of a file that a call shows the client: a file of the server
that `getattr`, a download or an upload was answered with OK for, a file that
was created, or one that was written. -/
def ClientEvent.shown : ClientEvent → Client × Link → Option (Path × Int)
  | .call (.getAttributes path) _, (client, link) =>
      if client.cachedAttr path = none ∧
          (client.getAttributes faulty path link).2.isSome then
        some (path, getFileTimestamp link.server.disk path)
      else none
  | .call (.openFile path) answers, (client, link) =>
      if (client.storedByOpen faulty answers path link).any fun answer =>
          answer.2.isOk then
        some (path, getFileTimestamp link.server.disk path)
      else none
  | .call (.createFile path) answers, (client, _) =>
      let created := client.createFile answers path
      if created.2 then
        (created.1.disk.modifiedAt path).map fun time => (path, time)
      else none
  | .call (.writeFile path data position) answers, (client, _) =>
      if (client.writeFile answers path data position).2 then
        some (path, answers.now)
      else none
  | .call (.closeFile path) answers, (client, link) =>
      let closed := client.closeFile faulty answers path link
      if closed.2 ∧ (client.cache path).any FileInfo.locallyModified then
        some (path, getFileTimestamp closed.1.2.server.disk path)
      else none
  | _, _ => none

/-- The cached modification times are those of the versions seen last. -/
def Seen.Covers (seen : Seen) (client : Client) : Prop :=
  ∀ path attr, client.cachedAttr path = some attr → seen path = some attr.mtime

/-- What the client has seen after a call that shows it a version or none. -/
def Seen.after (seen : Seen) : Option (Path × Int) → Seen
  | some version => Function.update seen version.1 (some version.2)
  | none => seen

/-- A client, the server it is connected to with the faults of the next calls,
and what the client has seen. -/
abbrev Observed := Client × Link × Seen

/-- The state after an event, with what the client has seen then. -/
def ClientEvent.observe (event : ClientEvent) : Observed → Option Observed
  | (client, link, seen) =>
      (event.step faulty (client, link)).map fun next =>
        (next.1, next.2, seen.after (event.shown (client, link)))

/-- The call looks up attributes, creates, opens, writes or closes a file. -/
def ClientEvent.Dates : ClientEvent → Prop
  | .call (.getAttributes _) _ | .call (.createFile _) _ | .call (.openFile _) _
  | .call (.writeFile _ _ _) _ | .call (.closeFile _) _ => True
  | _ => False

/-- The key of the attributes that `afs_getattr` reports for a path. -/
def Mount.attributesKey (mount : Mount) (name : String) : Path :=
  mount.getAttributesKey (callbackFilename name) (callbackDirectoryOrEmpty name)

/-- The cached modification times are those of the versions seen last, and
`afs_getattr` reports them. -/
structure TimesGenuine (state : Observed) : Prop where
  mtime : state.2.2.Covers state.1
  reports : ∀ (mount : Mount) (name : String) attr,
    state.1.cachedAttr (mount.attributesKey name) = some attr →
    ∃ stat time,
      mount.afsGetattr faulty name state.1 state.2.1 =
        ((state.1, state.2.1), some stat, 0) ∧
      state.2.2 (mount.attributesKey name) = some time ∧
      stat.mtim.sec * nanoseconds + stat.mtim.nsec = time

/-- The times among the attributes. -/
def FileAttributes.times (attr : FileAttributes) : Int × Int × Int :=
  (attr.atime, attr.mtime, attr.ctime)

/-- A failed `open_file` changes no cached time. -/
def ClientEvent.KeepsTimesOnFailure : ClientEvent → Observed → Prop
  | .call (.openFile path) answers, (client, link, _) =>
      (client.openFile faulty answers path link).2 = false → ∀ other,
        ((client.openFile faulty answers path link).1.1.cachedAttr other).map
            FileAttributes.times =
          (client.cachedAttr other).map FileAttributes.times
  | _, _ => True

/-- If the path has attributes when `open_file` stores an answer: an answer that
is OK is not for an empty file, unless its time is 0, and unless the open
succeeds, the last timestamp of the answer equals all cached times. -/
def Client.StoresGenuine (answers : LocalAnswers) (path : Path)
    (client : Client) (link : Link) : Prop :=
  ∀ attr responses status, client.cachedAttr path = some attr →
    client.storedByOpen faulty answers path link = some (responses, status) →
    (status.isOk → link.server.disk.read path = some [] →
      getFileTimestamp link.server.disk path = 0) ∧
    (¬ (status.isOk ∧ answers.streams = true) →
      attr.times = (Client.downloadAttr responses).times)

/-- The calls that keep cached times genuine. -/
def ClientEvent.KeepsTimes : ClientEvent → Observed → Prop
  | .call (.createFile path) answers, (client, _, _) =>
      client.Creates answers path → answers.now = 0 ∨ answers.now = -1
  | .call (.openFile path) answers, (client, link, _) =>
      client.StoresGenuine answers path link
  | _, _ => True

/-! ## What is cached and what was seen -/

section Seen

variable {client client' : Client} {link : Link} {seen : Seen} {path : Path}

/-- The report follows from the cached time. -/
theorem timesGenuine_iff :
    TimesGenuine (client, link, seen) ↔ seen.Covers client := by
  refine ⟨TimesGenuine.mtime, fun genuine => ⟨genuine, ?_⟩⟩
  intro mount name attr entered
  dsimp only at entered
  have looksUp : client.getAttributes faulty (mount.attributesKey name) link =
      ((client, link), some attr) := by
    simp only [Client.getAttributes, entered]
  have reported : mount.afsGetattr faulty name client link =
      ((client, link), some attr.stat, 0) := by
    unfold Mount.attributesKey at looksUp
    simp only [Mount.afsGetattr, looksUp]
  refine ⟨attr.stat, attr.mtime, reported, genuine _ attr entered, ?_⟩
  exact timeSpecOf_total attr.mtime

/-- A call that changes the attributes and what was seen at one path keeps the
times genuine if and only if they agree at the path. -/
theorem timesGenuine_update_iff {entry : Option FileAttributes}
    {version : Option Int}
    (covers : seen.Covers client)
    (attributes : client'.cachedAttr =
      Function.update client.cachedAttr path entry) :
    TimesGenuine (client', link, Function.update seen path version) ↔
      ∀ attr, entry = some attr → version = some attr.mtime := by
  rw [timesGenuine_iff, Seen.Covers, attributes]
  constructor
  · intro agrees attr isEntry
    simpa using agrees path attr (by simp [isEntry])
  · intro agrees other attr entered
    by_cases isPath : other = path
    · subst isPath
      simpa using agrees attr (by simpa using entered)
    · rw [Function.update_of_ne isPath] at entered ⊢
      exact covers other attr entered

end Seen

/-! ## The answers that `open_file` stores -/

section Answers

variable {answers : LocalAnswers} {request : FileRequest} {left : Nat}
variable {link : Link} {responses : List FileResponse} {status : Status}

/-- An answer that is OK carries the file as it is on the server. -/
theorem of_lastStored_ok
    (stored : Client.lastStored faulty answers request left link =
      some (responses, status))
    (ok : status.isOk) :
    ∃ contents, link.server.disk.read request.path = some contents ∧
      responses = Server.openResponses contents
        (getFileTimestamp link.server.disk request.path) := by
  induction left generalizing link with
  | zero => simp [Client.lastStored] at stored
  | succ left ih =>
      have sameDisk := faulty_openCall_disk link request
      cases call : faulty.openCall link request with
      | mk after answer =>
          obtain ⟨delivered, code⟩ := answer
          rw [call] at sameDisk
          simp only [Client.lastStored, call] at stored
          split at stored
          · split at stored
            · next isOk =>
                obtain ⟨rfl, -⟩ := Prod.mk.inj (Option.some.inj stored)
                exact Server.openHandler_ok (openHandler_of_openCall call isOk) isOk
            · next notOk =>
                rcases Option.or_eq_some_iff.mp stored with later | ⟨-, first⟩
                · have carried := ih later
                  rwa [sameDisk] at carried
                · obtain ⟨-, rfl⟩ := Prod.mk.inj (Option.some.inj first)
                  exact (notOk ok).elim
          · simp at stored

theorem of_storedByOpen {client : Client} {path : Path}
    (stored : client.storedByOpen faulty answers path link =
      some (responses, status)) :
    client.cache path = none ∧
      Client.lastStored faulty answers ⟨path, client.clientId, []⟩ maxTries link =
        some (responses, status) := by
  unfold Client.storedByOpen at stored
  split at stored
  · simp at stored
  · next notCached =>
      split at stored
      · exact ⟨notCached, stored⟩
      · simp at stored

/-- The last timestamp of an answer that is OK is the time of the file unless
the file is empty. -/
theorem lastTimestamp_eq_iff {client : Client} {path : Path}
    (stored : client.storedByOpen faulty answers path link =
      some (responses, status))
    (ok : status.isOk) :
    Client.lastTimestamp responses = getFileTimestamp link.server.disk path ↔
      (link.server.disk.read path = some [] →
        getFileTimestamp link.server.disk path = 0) := by
  obtain ⟨contents, read, rfl⟩ :=
    of_lastStored_ok (of_storedByOpen stored).2 ok
  dsimp only at read ⊢
  rw [read]
  by_cases empty : contents = []
  · subst empty
    have nothing : Client.lastTimestamp (Server.openResponses []
        (getFileTimestamp link.server.disk path)) = 0 := rfl
    rw [nothing]
    simp [eq_comm]
  · rw [Client.lastTimestamp_openResponses empty]
    simp [empty]

end Answers

/-! ## Steps -/

section Steps

variable {client client' : Client} {link link' : Link} {seen : Seen} {path : Path}
variable {answers : LocalAnswers}

/-- A call that shows nothing and changes no attributes keeps the times. -/
theorem timesGenuine_of_same
    (covers : seen.Covers client)
    (same : client'.cachedAttr = client.cachedAttr) :
    TimesGenuine (client', link, seen.after none) := by
  rw [timesGenuine_iff, Seen.Covers, same]
  exact covers

theorem sameTimes_update_iff {entry : Option FileAttributes}
    (attributes : client'.cachedAttr =
      Function.update client.cachedAttr path entry) :
    (∀ other, (client'.cachedAttr other).map FileAttributes.times =
        (client.cachedAttr other).map FileAttributes.times) ↔
      entry.map FileAttributes.times =
        (client.cachedAttr path).map FileAttributes.times := by
  rw [attributes]
  constructor
  · intro same
    simpa using same path
  · intro same other
    by_cases isPath : other = path
    · subst isPath
      simpa using same
    · rw [Function.update_of_ne isPath]

theorem storesGenuine_iff {attr : FileAttributes} {responses : List FileResponse}
    {status : Status} (entered : client.cachedAttr path = some attr)
    (stored : client.storedByOpen faulty answers path link =
      some (responses, status)) :
    client.StoresGenuine answers path link ↔
      (status.isOk → Client.lastTimestamp responses =
        getFileTimestamp link.server.disk path) ∧
      ((client.openFile faulty answers path link).2 = false →
        (Client.downloadAttr responses).times = attr.times) := by
  rw [← Bool.not_eq_true, Client.openFile_eq_true_iff_of_stored stored]
  constructor
  · intro genuine
    obtain ⟨nonempty, unlessOpened⟩ := genuine attr responses status entered stored
    constructor
    · exact fun ok => (lastTimestamp_eq_iff stored ok).mpr (nonempty ok)
    · exact fun fails => (unlessOpened fails).symm
  · rintro ⟨isTime, unlessOpened⟩ attr' responses' status' entered' stored'
    obtain rfl := Option.some.inj (entered.symm.trans entered')
    obtain ⟨rfl, rfl⟩ := Prod.mk.inj (Option.some.inj (stored.symm.trans stored'))
    constructor
    · exact fun ok => (lastTimestamp_eq_iff stored ok).mp (isTime ok)
    · exact fun fails => (unlessOpened fails).symm

/-- The last answer that is stored shows the file if it is OK. -/
theorem seen_after_openFile {responses : List FileResponse} {status : Status}
    (seen : Seen)
    (stored : client.storedByOpen faulty answers path link =
      some (responses, status)) :
    seen.after (ClientEvent.shown (.call (.openFile path) answers)
        (client, link)) =
      Function.update seen path (if status.isOk then
        some (getFileTimestamp link.server.disk path) else seen path) := by
  cases ok : status.isOk with
  | true => simp [ClientEvent.shown, stored, ok, Seen.after]
  | false => simp [ClientEvent.shown, stored, ok, Seen.after]

/-- For a path with attributes, the times after `open_file` are genuine, and the
old ones if it failed, exactly if what it stores is. -/
theorem agrees_iff_storesGenuine {attr : FileAttributes}
    {responses : List FileResponse} {status : Status}
    (wasSeen : seen path = some attr.mtime)
    (entered : client.cachedAttr path = some attr)
    (stored : client.storedByOpen faulty answers path link =
      some (responses, status)) :
    ((if status.isOk then some (getFileTimestamp link.server.disk path)
          else seen path) = some (Client.lastTimestamp responses) ∧
      ((client.openFile faulty answers path link).2 = false →
        (Client.downloadAttr responses).times = attr.times)) ↔
      client.StoresGenuine answers path link := by
  rw [storesGenuine_iff entered stored]
  cases ok : status.isOk with
  | true =>
      rw [if_pos rfl, Option.some.injEq]
      constructor
      · rintro ⟨isTime, sameTimes⟩
        exact ⟨fun _ => isTime.symm, sameTimes⟩
      · rintro ⟨isTime, sameTimes⟩
        exact ⟨(isTime rfl).symm, sameTimes⟩
  | false =>
      have fails : (client.openFile faulty answers path link).2 = false := by
        rw [← Bool.not_eq_true, Client.openFile_eq_true_iff_of_stored stored, ok]
        simp
      rw [if_neg (by simp), wasSeen, Option.some.injEq]
      constructor
      · rintro ⟨-, sameTimes⟩
        exact ⟨by simp, sameTimes⟩
      · rintro ⟨-, sameTimes⟩
        have sameMtime := congrArg (fun times => times.2.1) (sameTimes fails)
        exact ⟨sameMtime.symm, sameTimes⟩

theorem openFile_keepsTimes_iff
    (covers : seen.Covers client) :
    (TimesGenuine ((client.openFile faulty answers path link).1.1,
        (client.openFile faulty answers path link).1.2,
        seen.after (ClientEvent.shown (.call (.openFile path) answers)
          (client, link))) ∧
      ClientEvent.KeepsTimesOnFailure (.call (.openFile path) answers)
        (client, link, seen)) ↔
      client.StoresGenuine answers path link := by
  have attributes := Client.cachedAttr_openFile faulty answers path client link
  unfold Client.updateAttr at attributes
  unfold ClientEvent.KeepsTimesOnFailure
  dsimp only
  rw [sameTimes_update_iff attributes]
  cases stored : client.storedByOpen faulty answers path link with
  | none =>
      have unchanged : Client.refreshed none = id := rfl
      have notShown : ClientEvent.shown (.call (.openFile path) answers)
          (client, link) = none := by
        simp [ClientEvent.shown, stored]
      rw [stored, unchanged, Option.map_id, id, Function.update_eq_self]
        at attributes
      rw [notShown, unchanged, Option.map_id, id]
      constructor
      · intro _ attr responses status _ isStored
        simp [stored] at isStored
      · exact fun _ => ⟨timesGenuine_of_same covers attributes, fun _ => rfl⟩
  | some answer =>
      obtain ⟨responses, status⟩ := answer
      rw [seen_after_openFile seen stored,
        timesGenuine_update_iff covers attributes, stored]
      cases entered : client.cachedAttr path with
      | none =>
          constructor
          · intro _ attr _ _ isAttr
            simp [entered] at isAttr
          · exact fun _ => ⟨by simp, fun _ => rfl⟩
      | some attr =>
          rw [← agrees_iff_storesGenuine (covers path attr entered) entered stored]
          have isRefreshed : (some attr).map (Client.refreshed
              (some (responses, status))) =
                some (Client.downloadAttr responses) := rfl
          rw [isRefreshed]
          constructor
          · rintro ⟨agrees, sameTimes⟩
            exact ⟨agrees _ rfl, fun fails => Option.some.inj (sameTimes fails)⟩
          · rintro ⟨agrees, sameTimes⟩
            constructor
            · rintro _ ⟨⟩
              exact agrees
            · exact fun fails => congrArg some (sameTimes fails)

/-- The time in seconds is the one in nanoseconds for two times only. -/
theorem eq_seconds_iff (time : Int) :
    time = time / 1000000000 ↔ time = 0 ∨ time = -1 := by
  omega

theorem createFile_timesGenuine_iff
    (covers : seen.Covers client) :
    TimesGenuine ((client.createFile answers path).1, link,
        seen.after (ClientEvent.shown (.call (.createFile path) answers)
          (client, link))) ↔
      (client.Creates answers path → answers.now = 0 ∨ answers.now = -1) := by
  rw [← Client.createFile_eq_true_iff, ← eq_seconds_iff]
  unfold ClientEvent.shown
  dsimp only
  cases creates : client.createFile answers path with
  | mk client' created =>
      cases created with
      | true =>
          obtain ⟨attributes, -, time⟩ := Client.createFile_eq_true creates
          simp only [time, Option.map_some, if_true, Seen.after, true_imp_iff]
          rw [timesGenuine_update_iff covers attributes]
          constructor
          · exact fun agrees => Option.some.inj (agrees _ rfl)
          · rintro inSeconds attr isAttr
            obtain rfl := Option.some.inj isAttr
            exact congrArg some inSeconds
      | false =>
          have same := Client.cachedAttr_of_createFile_false creates
          simp only [Bool.false_eq_true, if_false, false_imp_iff, iff_true]
          exact timesGenuine_of_same covers same

theorem writeFile_timesGenuine (link : Link)
    (covers : seen.Covers client)
    (data : Bytes) (position : Int)
    (onDisk : ((client.writeFile answers path data position).1.entry
      path).OnDisk) :
    TimesGenuine ((client.writeFile answers path data position).1, link,
      seen.after (ClientEvent.shown
        (.call (.writeFile path data position) answers) (client, link))) := by
  unfold ClientEvent.shown
  dsimp only
  cases writes : client.writeFile answers path data position with
  | mk client' wrote =>
      rw [writes] at onDisk
      cases wrote with
      | true =>
          obtain ⟨timestamp, cache⟩ :=
            (Client.writeResult_of_writeFile writes).cache
          have cached : client'.cache path = some ⟨true, timestamp⟩ := by
            simp [cache]
          obtain ⟨contents, read⟩ := onDisk.exists_read cached
          have attributes := Client.cachedAttr_of_writeFile writes read
          simp only [if_true, Seen.after]
          rw [timesGenuine_update_iff covers attributes]
          intro attr isAttr
          obtain ⟨before, -, rfl⟩ := Option.map_eq_some_iff.mp isAttr
          rfl
      | false =>
          have same := Client.cachedAttr_of_writeFile_false writes
          simp only [Bool.false_eq_true, if_false]
          exact timesGenuine_of_same covers same

theorem closeFile_timesGenuine (link : Link) (path : Path)
    (answers : LocalAnswers)
    (covers : seen.Covers client) :
    TimesGenuine ((client.closeFile faulty answers path link).1.1,
      (client.closeFile faulty answers path link).1.2,
      seen.after (ClientEvent.shown (.call (.closeFile path) answers)
        (client, link))) := by
  unfold ClientEvent.shown
  dsimp only
  cases closes : client.closeFile faulty answers path link with
  | mk state closed =>
      obtain ⟨client', link'⟩ := state
      cases closed with
      | true =>
          obtain ⟨info, cached, ⟨unmodified, same⟩ |
            ⟨modified, before, contents, response, status, -, read, call, ok,
              attributes⟩⟩ :=
            Client.cachedAttr_of_closeFile (fun _ => True)
              (fun _ _ _ _ => trivial) trivial closes
          · simp only [cached, Option.any_some, unmodified, Bool.false_eq_true,
              and_false, if_false]
            exact timesGenuine_of_same covers same
          · simp only [cached, Option.any_some, modified, and_self, if_true,
              Seen.after]
            rw [timesGenuine_update_iff covers attributes]
            intro attr isAttr
            obtain ⟨earlier, -, rfl⟩ := Option.map_eq_some_iff.mp isAttr
            have handles := closeHandler_of_closeCall call ok
            have samePath : ∀ request ∈ client.uploadRequests path contents,
                request.path = path :=
              fun request member => (Client.of_mem_uploadRequests member).1
            exact congrArg some
              (Server.closeHandler_ok samePath handles ok).2.symm
      | false =>
          have same := Client.cachedAttr_of_closeFile_false closes
          simp only [Bool.false_eq_true, false_and, if_false]
          exact timesGenuine_of_same covers same

theorem getAttributes_timesGenuine (link : Link) (path : Path)
    (answers : LocalAnswers)
    (covers : seen.Covers client) :
    TimesGenuine ((client.getAttributes faulty path link).1.1,
      (client.getAttributes faulty path link).1.2,
      seen.after (ClientEvent.shown (.call (.getAttributes path) answers)
        (client, link))) := by
  unfold ClientEvent.shown
  dsimp only
  cases entered : client.cachedAttr path with
  | some attr =>
      have unchanged : client.getAttributes faulty path link =
          ((client, link), some attr) := by
        simp only [Client.getAttributes, entered]
      simp only [unchanged, reduceCtorEq, false_and, if_false]
      exact timesGenuine_of_same covers rfl
  | none =>
      cases call : faulty.getattrCall link path with
      | mk link' answer =>
          obtain ⟨attr, status⟩ := answer
          cases ok : status.isOk with
          | true =>
              have result : client.getAttributes faulty path link =
                  (({ client with cachedAttr :=
                    Function.update client.cachedAttr path (some attr) }, link'),
                    some attr) := by
                simp only [Client.getAttributes, entered, call, ok, if_true]
              obtain ⟨handles, -⟩ := getattrHandler_of_getattrCall call ok
              obtain ⟨contents, -, rfl⟩ := Server.getattrHandler_ok handles ok
              simp only [result, Option.isSome_some, and_self, if_true, Seen.after]
              rw [timesGenuine_update_iff covers rfl]
              intro attr isAttr
              obtain rfl := Option.some.inj isAttr
              rfl
          | false =>
              have result : client.getAttributes faulty path link =
                  ((client, link'), none) := by
                simp only [Client.getAttributes, entered, call, ok,
                  Bool.false_eq_true, if_false]
              simp only [result, Option.isSome_none, Bool.false_eq_true,
                and_false, if_false]
              exact timesGenuine_of_same covers rfl

theorem not_rename_of_dates {event : ClientEvent} (dates : event.Dates)
    (oldPath newPath : Path) (answers : LocalAnswers) :
    event ≠ .call (.renameFile oldPath newPath) answers := by
  rintro rfl
  exact dates

theorem onDisk_of_observe {event : ClientEvent} {state next : Observed}
    (dates : event.Dates) (onDisk : ∀ path, (state.1.entry path).OnDisk)
    (steps : event.observe state = some next) (path : Path) :
    (next.1.entry path).OnDisk := by
  obtain ⟨client, link, seen⟩ := state
  obtain ⟨after, stepEq, rfl⟩ := Option.map_eq_some_iff.mp steps
  apply onDisk_of_step (not_rename_of_dates dates) _ stepEq path
  exact onDisk

theorem timesGenuine_observe_iff {event : ClientEvent} {state next : Observed}
    (dates : event.Dates) (onDisk : ∀ path, (state.1.entry path).OnDisk)
    (genuine : TimesGenuine state) (steps : event.observe state = some next) :
    TimesGenuine next ∧ event.KeepsTimesOnFailure state ↔
      event.KeepsTimes state := by
  have onDisk' := onDisk_of_observe dates onDisk steps
  obtain ⟨client, link, seen⟩ := state
  obtain ⟨after, stepEq, rfl⟩ := Option.map_eq_some_iff.mp steps
  have covers := genuine.mtime
  cases event with
  | notified note => exact dates.elim
  | call operation answers =>
      cases operation with
      | openFile path =>
          obtain rfl := Option.some.inj stepEq
          exact openFile_keepsTimes_iff covers
      | createFile path =>
          obtain rfl := Option.some.inj stepEq
          exact (and_iff_left trivial).trans
            (createFile_timesGenuine_iff covers)
      | writeFile path data position =>
          obtain rfl := Option.some.inj stepEq
          have kept := writeFile_timesGenuine link covers data position
            (onDisk' path)
          exact ⟨fun _ => trivial, fun _ => ⟨kept, trivial⟩⟩
      | closeFile path =>
          obtain rfl := Option.some.inj stepEq
          have kept := closeFile_timesGenuine link path answers covers
          exact ⟨fun _ => trivial, fun _ => ⟨kept, trivial⟩⟩
      | getAttributes path =>
          obtain rfl := Option.some.inj stepEq
          have kept := getAttributes_timesGenuine link path answers covers
          exact ⟨fun _ => trivial, fun _ => ⟨kept, trivial⟩⟩
      | readFile path size offset => exact dates.elim
      | truncateFile directory filename size => exact dates.elim
      | deleteFile path => exact dates.elim
      | renameFile oldPath newPath => exact dates.elim

end Steps

/-- In every run of calls that look up attributes, create, open, write or close
files: cached times are genuine in every state and no failed open changes one,
if and only if no file is created except at two instants around 1970, no file
that has attributes is downloaded empty unless its time is 0, and an open that
fails has stored no answer for a path with attributes whose times differ. -/
theorem timesGenuine_throughout_iff {client : ClientId} {link : Link}
    {events : List ClientEvent} {final : Observed}
    (dates : ∀ event ∈ events, event.Dates)
    (reaches : run ClientEvent.observe events
      (Client.launch client, link, fun _ => none) = some final) :
    Throughout ClientEvent.observe TimesGenuine events
        (Client.launch client, link, fun _ => none) ∧
      Along ClientEvent.observe ClientEvent.KeepsTimesOnFailure events
        (Client.launch client, link, fun _ => none) ↔
    Along ClientEvent.observe ClientEvent.KeepsTimes events
      (Client.launch client, link, fun _ => none) := by
  have suits : Along ClientEvent.observe (fun event _ => event.Dates) events
      (Client.launch client, link, fun _ => none) :=
    along_of_forall (fun event member _ => dates event member) _
  apply throughout_and_along_iff_along
    (fun state : Observed => ∀ path, (state.1.entry path).OnDisk)
    _ _ reaches suits (onDisk_launch client)
  · rw [timesGenuine_iff]
    simp [Seen.Covers, Client.launch]
  · intro event state next dates onDisk steps
    exact onDisk_of_observe dates onDisk steps
  · intro event state next dates onDisk genuine steps
    exact timesGenuine_observe_iff dates onDisk genuine steps

/-- A server with a file of one byte and an empty file, and faults of the next
calls. -/
private def twoFilesServer (faults : List (Option Fault)) : Link :=
  ⟨Server.launch "/srv"
    ((FileStore.empty.replace "/srv/a" [[97]] 7).replace "/srv/empty" [] 8) 0,
    faults⟩

/-- Nothing of the answer arrives. -/
private def noAnswer : Option Fault :=
  some ⟨0, .success, ⟨.unavailable, "Socket closed"⟩, rfl⟩

/-- A file is looked up, opened, written and closed. -/
private def lookedUpThenWritten : List ClientEvent :=
  [.call (.getAttributes "/srv/a") (.success 10),
    .call (.openFile "/srv/a") (.success 11),
    .call (.writeFile "/srv/a" [98] 1) (.success 12),
    .call (.closeFile "/srv/a") (.success 13)]

/-- The first attempt to open the file fails. -/
theorem timesGenuine_throughout_written :
    Throughout ClientEvent.observe TimesGenuine lookedUpThenWritten
        (Client.launch "writer", twoFilesServer [none, noAnswer], fun _ => none) ∧
      Along ClientEvent.observe ClientEvent.KeepsTimesOnFailure
        lookedUpThenWritten
        (Client.launch "writer", twoFilesServer [none, noAnswer],
          fun _ => none) := by
  have dates : ∀ event ∈ lookedUpThenWritten, event.Dates := by
    simp [lookedUpThenWritten, ClientEvent.Dates]
  apply (timesGenuine_throughout_iff dates rfl).mpr
  refine ⟨trivial, fun _ lookedUp => ?_⟩
  obtain rfl := Option.some.inj lookedUp
  refine ⟨?_, fun _ opened => ?_⟩
  · intro attr responses status _ stored
    have sent : some (Server.openResponses [97] 7, Status.OK) =
        some (responses, status) := stored
    obtain ⟨rfl, rfl⟩ := Prod.mk.inj (Option.some.inj sent)
    constructor
    · intro _ empty
      exact absurd empty (by decide)
    · exact fun fails => (fails ⟨rfl, rfl⟩).elim
  obtain rfl := Option.some.inj opened
  exact ⟨trivial, fun _ _ => ⟨trivial, fun _ _ => trivial⟩⟩

/-- A file is created in November 2023. -/
private def createdLater : List ClientEvent :=
  [.call (.createFile "/srv/b") (.success 1700000000123456789)]

/-- The empty file is looked up and opened. -/
private def emptyOpened : List ClientEvent :=
  [.call (.getAttributes "/srv/empty") (.success 10),
    .call (.openFile "/srv/empty") (.success 11)]

/-- A file is looked up and opened. -/
private def lookedUpThenOpened : List ClientEvent :=
  [.call (.getAttributes "/srv/a") (.success 10),
    .call (.openFile "/srv/a") (.success 11)]

/-- The created file is reported as one of the second after the epoch, and the
empty one and the one that could not be opened as files of the epoch. -/
theorem cached_times_lost :
    (∃ final : Observed,
      run ClientEvent.observe createdLater
          (Client.launch "writer", twoFilesServer [], fun _ => none) =
        some final ∧
      final.1.disk.modifiedAt "/srv/b" = some 1700000000123456789 ∧
      final.2.2 "/srv/b" = some 1700000000123456789 ∧
      (final.1.cachedAttr "/srv/b").map FileAttributes.mtime = some 1700000000 ∧
      (final.1.cachedAttr "/srv/b").map (fun attr => attr.stat.mtim) =
        some ⟨1, 700000000⟩) ∧
    (∃ final : Observed,
      run ClientEvent.observe emptyOpened
          (Client.launch "writer", twoFilesServer [], fun _ => none) =
        some final ∧
      final.2.2 "/srv/empty" = some 8 ∧
      (final.1.cachedAttr "/srv/empty").map FileAttributes.mtime = some 0) ∧
    ∃ final : Observed,
      run ClientEvent.observe lookedUpThenOpened
          (Client.launch "writer",
            twoFilesServer [none, noAnswer, noAnswer, noAnswer],
            fun _ => none) = some final ∧
      final.1.openedFiles "/srv/a" = none ∧
      final.2.2 "/srv/a" = some 7 ∧
      (final.1.cachedAttr "/srv/a").map FileAttributes.times =
        some (0, 0, 0) :=
  ⟨⟨_, rfl, rfl, rfl, rfl, rfl⟩, ⟨_, rfl, rfl, rfl⟩, _, rfl, rfl, rfl, rfl⟩

end DistributedFilesystem
