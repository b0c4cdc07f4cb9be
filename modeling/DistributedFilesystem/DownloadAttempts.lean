import DistributedFilesystem.DirectCalls

/-!
# The attempts of a download

`open_file` attempts to download a file at most three times.  Whatever the
attempts before it delivered, the first attempt that is answered with OK leaves
the local file, the entry in the cache and the timestamp that it delivered; and
when no attempt is answered with OK, nothing is left of any.
-/

namespace DistributedFilesystem

section Attempts

variable {σ : Type*} (remote : Remote σ) (request : FileRequest) (r : σ)

/-- The state after so many calls of `open`. -/
def afterOpens (calls : Nat) : σ :=
  (fun r => (remote.openCall r request).1)^[calls] r

/-- What the attempt after so many others delivers, and its status. -/
def attemptOutcome (calls : Nat) : List FileResponse × Status :=
  (remote.openCall (afterOpens remote request r calls) request).2

/-- The attempt is answered with OK. -/
def AttemptSucceeds (calls : Nat) : Prop :=
  (attemptOutcome remote request r calls).2.isOk = true

/-- The responses carry their contents' length, as the server builds them. -/
def BuiltByServer (calls : Nat) : Prop :=
  ∀ response ∈ (attemptOutcome remote request r calls).1,
    response.length = response.content.length

theorem length_of_mem_openResponses {contents : Bytes} {timestamp : Int}
    {response : FileResponse}
    (member : response ∈ Server.openResponses contents timestamp) :
    response.length = response.content.length := by
  obtain ⟨block, -, rfl⟩ := List.mem_map.mp member
  rfl

/-- The responses of the server's handler that arrive are built in this way,
whatever faults the calls meet. -/
theorem builtByServer_faulty (request : FileRequest) (link : Remote.Link)
    (calls : Nat) : BuiltByServer Remote.faulty request link calls := by
  intro response member
  have sent : ∀ (s : Server) (outcome : DiskOutcome),
      response ∈ (s.sendFile request.path outcome).1 →
        response.length = response.content.length := by
    intro s outcome isSent
    unfold Server.sendFile at isSent
    split at isSent
    · exact length_of_mem_openResponses isSent
    · simp at isSent
  unfold attemptOutcome Remote.faulty at member
  dsimp only at member
  split at member
  · exact sent _ _ member
  · exact sent _ _ (List.mem_of_mem_take member)

end Attempts

namespace Client

variable {σ : Type*} {remote : Remote σ} {now : Int} {path : Path}
variable {client client' : Client} {r r' : σ}

/-- The request of all attempts. -/
def openRequest (client : Client) (path : Path) : FileRequest :=
  ⟨path, client.clientId, []⟩

/-- The client has what the attempt after so many others delivered, has the
file open, and has made no further attempt. -/
structure Delivered (remote : Remote σ) (path : Path) (client : Client) (r : σ)
    (calls : Nat) (client' : Client) (r' : σ) : Prop where
  succeeds : AttemptSucceeds remote (client.openRequest path) r calls
  first : ∀ earlier < calls,
    ¬ AttemptSucceeds remote (client.openRequest path) r earlier
  noFurther : r' = afterOpens remote (client.openRequest path) r (calls + 1)
  copy : client'.disk.read path = some
    ((attemptOutcome remote (client.openRequest path) r calls).1.map
      FileResponse.content).flatten
  cache : client'.cache path = some ⟨false, lastTimestamp
    (attemptOutcome remote (client.openRequest path) r calls).1⟩
  justOpened : JustOpened path client'

/-- The client has neither an entry nor a local file for the path. -/
structure Abandoned (path : Path) (client' : Client) : Prop where
  cache : client'.cache path = none
  openedFiles : client'.openedFiles path = none
  copy : client'.disk.node path = none

/-- What `open_file` returns is whether one of its attempts succeeds, and what
it leaves is what that attempt delivered, or nothing. -/
structure DeliversOneDownload (remote : Remote σ) (path : Path)
    (client : Client) (r : σ) (result : (Client × σ) × Bool) : Prop where
  opened : result.2 = true ↔
    ∃ calls < 3, AttemptSucceeds remote (client.openRequest path) r calls
  delivered : result.2 = true →
    ∃ calls < 3, Delivered remote path client r calls result.1.1 result.1.2
  abandoned : result.2 = false → Abandoned path result.1.1

/-- Responses whose length is that of their contents are stored as they are. -/
theorem downloaded_of_built {responses : List FileResponse}
    (built : ∀ response ∈ responses,
      response.length = response.content.length) :
    downloaded responses = (responses.map FileResponse.content).flatten := by
  induction responses with
  | nil => rfl
  | cons response responses ih =>
      have later := ih fun other member =>
        built other (List.mem_cons_of_mem _ member)
      have length := built response List.mem_cons_self
      unfold downloaded at later ⊢
      by_cases positive : 0 < response.length
      · simp [positive, later]
      · have nothing : response.content = [] := by
          apply List.eq_nil_of_length_eq_zero
          omega
        simp [positive, nothing, later]

/-- One attempt, when local file operations succeed. -/
def attemptStep (remote : Remote σ) (now : Int) (path : Path)
    (state : Client × σ) : Client × σ :=
  (downloadAttempt remote (.success now) path 0 state).1

/-- The status of one attempt. -/
def attemptStatus (remote : Remote σ) (path : Path) (state : Client × σ) :
    Status :=
  (remote.openCall state.2 (state.1.openRequest path)).2.2

theorem downloadAttempt_success (left : Nat) (state : Client × σ) :
    downloadAttempt remote (.success now) path left state =
      (attemptStep remote now path state,
        some (attemptStatus remote path state)) :=
  rfl

/-- Attempts that fail leave the entries of the path as they were. -/
structure StillClosed (path : Path) (client client' : Client) : Prop where
  elsewhere : SameElsewhere path client client'
  openedFiles : client'.openedFiles = client.openedFiles
  cache : client'.cache path = client.cache path

theorem StillClosed.openRequest (still : StillClosed path client client') :
    client.openRequest path = client'.openRequest path := by
  unfold Client.openRequest
  rw [still.elsewhere.clientId]

theorem stillClosed_attempts (remote : Remote σ) (now : Int) (path : Path)
    (client : Client) (r : σ) (calls : Nat)
    (fail : ∀ earlier < calls,
      (attemptStatus remote path
        ((attemptStep remote now path)^[earlier] (client, r))).isOk = false) :
    StillClosed path client
        ((attemptStep remote now path)^[calls] (client, r)).1 ∧
      ((attemptStep remote now path)^[calls] (client, r)).2 =
        afterOpens remote (client.openRequest path) r calls := by
  induction calls with
  | zero => exact ⟨⟨.refl _ _, rfl, rfl⟩, rfl⟩
  | succ calls ih =>
      obtain ⟨still, sameState⟩ := ih fun earlier before =>
        fail earlier (Nat.lt_succ_of_lt before)
      have failed := fail calls (Nat.lt_succ_self calls)
      simp only [afterOpens, Function.iterate_succ_apply'] at sameState ⊢
      rw [← sameState]
      obtain ⟨responses, code, call, effect⟩ := downloadResult remote
        (.success now) path
        ((attemptStep remote now path)^[calls] (client, r)).1
        ((attemptStep remote now path)^[calls] (client, r)).2 0
      have sameRequest := still.openRequest
      have isCode : code.isOk = false := by
        rw [attemptStatus, openRequest, call] at failed
        exact failed
      refine ⟨⟨still.elsewhere.trans effect.elsewhere,
        effect.openedFiles.trans still.openedFiles, ?_⟩, ?_⟩
      · obtain ⟨-, cache⟩ | ⟨-, -, cache⟩ := effect.outcome
        · exact (congrFun cache path).trans still.cache
        · rw [isCode] at cache
          exact (cache.trans (by simp)).trans still.cache
      · rw [sameRequest]
        exact (congrArg Prod.fst call).symm

/-- The status of an attempt is that of the call it makes. -/
theorem attemptSucceeds_iff (remote : Remote σ) (now : Int) (path : Path)
    (client : Client) (r : σ) (calls : Nat)
    (fail : ∀ earlier < calls,
      (attemptStatus remote path
        ((attemptStep remote now path)^[earlier] (client, r))).isOk = false) :
    AttemptSucceeds remote (client.openRequest path) r calls ↔
      (attemptStatus remote path
        ((attemptStep remote now path)^[calls] (client, r))).isOk = true := by
  obtain ⟨still, sameState⟩ := stillClosed_attempts remote now path client r
    calls fail
  have sameRequest := still.openRequest
  rw [AttemptSucceeds, attemptOutcome, attemptStatus, ← sameState,
    ← sameRequest]

/-- What an attempt that is answered with OK leaves can be opened. -/
theorem delivered_of_attempts {calls : Nat}
    (fail : ∀ earlier < calls,
      (attemptStatus remote path
        ((attemptStep remote now path)^[earlier] (client, r))).isOk = false)
    (succeeds : (attemptStatus remote path
      ((attemptStep remote now path)^[calls] (client, r))).isOk = true)
    (built : BuiltByServer remote (client.openRequest path) r calls) :
    ∃ streams, openStreams (.success now) path
          ((attemptStep remote now path)^[calls + 1] (client, r)).1 =
        some streams ∧
      Delivered remote path client r calls
        (insertOpened ((attemptStep remote now path)^[calls + 1] (client, r)).1
          path streams)
        ((attemptStep remote now path)^[calls + 1] (client, r)).2 := by
  obtain ⟨still, sameState⟩ := stillClosed_attempts remote now path client r
    calls fail
  have sameRequest := still.openRequest
  have iff := attemptSucceeds_iff remote now path client r
  rw [Function.iterate_succ_apply']
  obtain ⟨responses, code, call, effect⟩ := downloadResult remote
    (.success now) path
    ((attemptStep remote now path)^[calls] (client, r)).1
    ((attemptStep remote now path)^[calls] (client, r)).2 0
  have isCode : code.isOk = true := by
    rw [attemptStatus, openRequest, call] at succeeds
    exact succeeds
  have outcome : attemptOutcome remote (client.openRequest path) r calls =
      (responses, code) := by
    rw [attemptOutcome, ← sameState, sameRequest]
    exact congrArg Prod.snd call
  have stored : (attemptStep remote now path
      ((attemptStep remote now path)^[calls] (client, r))).1.disk.read path =
        some (responses.map FileResponse.content).flatten ∧
      (attemptStep remote now path
        ((attemptStep remote now path)^[calls] (client, r))).1.cache path =
          some ⟨false, lastTimestamp responses⟩ := by
    rw [BuiltByServer, outcome] at built
    rw [← downloaded_of_built built]
    obtain ⟨⟨⟩, -⟩ | ⟨-, read, cache⟩ := effect.outcome
    rw [if_pos isCode] at cache
    exact ⟨read, cache⟩
  have present : ((attemptStep remote now path
      ((attemptStep remote now path)^[calls] (client, r))).1.disk.node
        path).isSome := by
    rw [← FileStore.read_isSome_iff, stored.1]
    rfl
  obtain ⟨i, refers⟩ := Option.isSome_iff_exists.mp present
  have opens : openStreams (.success now) path (attemptStep remote now path
      ((attemptStep remote now path)^[calls] (client, r))).1 =
        some ⟨.fresh i, .fresh i⟩ := by
    simp [openStreams, refers, LocalAnswers.success]
  refine ⟨_, opens, ?_⟩
  constructor
  case succeeds => exact (iff calls fail).mpr succeeds
  case first =>
    intro earlier before
    rw [iff earlier fun j within => fail j (within.trans before),
      fail earlier before]
    simp
  case noFurther =>
    rw [afterOpens, Function.iterate_succ_apply', ← afterOpens, ← sameState,
      sameRequest]
    exact (congrArg Prod.fst call).symm
  case copy => rw [outcome]; exact stored.1
  case cache => rw [outcome]; exact stored.2
  case justOpened => exact justOpened_insertOpened opens

end Client

open Client

/-- Opening a file that is neither cached nor open returns true if and only if
one of the first three attempts is answered with OK, and leaves exactly what
the first such attempt delivered. -/
theorem openFile_deliversOneDownload {σ : Type*} (remote : Remote σ)
    (now : Int) (path : Path) (client : Client) (r : σ)
    (uncached : client.cache path = none)
    (closed : client.openedFiles path = none)
    (built : ∀ calls < 3,
      BuiltByServer remote (client.openRequest path) r calls) :
    DeliversOneDownload remote path client r
      (client.openFile remote (.success now) path r) := by
  have iff := attemptSucceeds_iff remote now path client r
  have begins : client.openFile remote (.success now) path r =
      client.openUncached remote (.success now) path r := by
    simp only [openFile, uncached]
  rw [begins]
  have isStep : ∀ left state,
      downloadAttempt remote (.success now) path left state =
        (attemptStep remote now path state,
          some (attemptStatus remote path state)) := downloadAttempt_success
  have notYet : Status.initial.isOk = false := rfl
  rcases retry_of_steps isStep maxTries (client, r) notYet with
    ⟨calls, within, earlier, isOk, ends⟩ | ⟨all, final, fails, ends⟩
  · obtain ⟨streams, opens, delivered⟩ :=
      delivered_of_attempts earlier isOk (built calls within)
    have result : client.openUncached remote (.success now) path r =
        ((insertOpened ((attemptStep remote now path)^[calls + 1]
            (client, r)).1 path streams,
          ((attemptStep remote now path)^[calls + 1] (client, r)).2), true) := by
      unfold openUncached
      rw [ends]
      simp only [isOk, opens]
      rfl
    rw [result]
    constructor
    case opened => simpa using ⟨calls, within, delivered.succeeds⟩
    case delivered => exact fun _ => ⟨calls, within, delivered⟩
    case abandoned => simp
  · obtain ⟨still, sameState⟩ := stillClosed_attempts remote now path client r
      maxTries all
    have result : client.openUncached remote (.success now) path r =
        (({ ((attemptStep remote now path)^[maxTries] (client, r)).1 with
            disk := ((attemptStep remote now path)^[maxTries]
              (client, r)).1.disk.remove path },
          ((attemptStep remote now path)^[maxTries] (client, r)).2), false) := by
      unfold openUncached
      rw [ends]
      simp only [fails]
      rfl
    rw [result]
    constructor
    case opened =>
      simp only [Bool.false_eq_true, false_iff, not_exists, not_and]
      intro calls within
      rw [iff calls fun j before => all j (before.trans within),
        all calls within]
      simp
    case delivered => simp
    case abandoned =>
      intro _
      constructor
      case cache => exact still.cache.trans uncached
      case openedFiles => exact (congrFun still.openedFiles path).trans closed
      case copy => simp [FileStore.remove]

/-- A server with a file of one byte; the first call ends after the byte has
arrived. -/
private def cutAfterByte : Remote.Link where
  server := .launch "/srv"
    ((FileStore.empty.create "/srv/a" 0).writeAt 0 0 [7] 0) 0
  faults := [some ⟨1, .success, ⟨.unavailable, "Connection reset"⟩, rfl⟩]

/-- A download whose first attempt delivers the file and then fails. -/
theorem openFile_deliversOneDownload_second :
    DeliversOneDownload Remote.faulty "/srv/a" (.launch "reader") cutAfterByte
      ((Client.launch "reader").openFile Remote.faulty (.success 0) "/srv/a"
        cutAfterByte) :=
  openFile_deliversOneDownload Remote.faulty 0 "/srv/a" (.launch "reader")
    cutAfterByte rfl rfl fun calls _ => builtByServer_faulty _ _ calls

end DistributedFilesystem
