import DistributedFilesystem.DashboardRuns
import DistributedFilesystem.LockedThreadsAlone
import DistributedFilesystem.ServerThreads

/-!
# Handlers that run alone

A handler that runs from its start to its return with nothing in between does
what the function of the same name does in one go, whatever the streams of the
standard library read ahead and write behind and in whatever order the callbacks
come to the registered clients.
-/

namespace DistributedFilesystem

open LockedThreads

section Callbacks

variable {held : Set Lock} {s : Server} {log : List Event} {t t' : HandlerLocals}
variable {w' : Recorded} {rest : Code} {client : ClientId} {notif : Notification}

/-- A client may be notified first. -/
theorem notifyAll_notifyOne (s : Server) (client : ClientId)
    (notif : Notification) (receiver : ClientId) (clients : Finset ClientId) :
    (Server.notifyOne client notif receiver s).notifyAll client notif clients =
      Server.notifyOne client notif receiver
        (s.notifyAll client notif clients) := by
  induction clients using Finset.induction_on with
  | empty => rfl
  | insert other clients fresh ih =>
      rw [Server.notifyAll_insert fresh, Server.notifyAll_insert fresh, ih]
      exact LeftCommutative.left_comm ..

theorem notifyAll_erase {clients : Finset ClientId} {receiver : ClientId}
    (member : receiver ∈ clients) :
    (Server.notifyOne client notif receiver s).notifyAll client notif
        (clients.erase receiver) = s.notifyAll client notif clients := by
  rw [notifyAll_notifyOne, ← Server.notifyAll_insert (Finset.notMem_erase receiver clients),
    Finset.insert_erase member]

/-- The loop of the callbacks. -/
theorem alone_notifyEach {clients : Finset ClientId}
    (alone : Alone exec held ⟨s, log⟩ t
      (.act (.notifyEach client notif clients) :: rest) w' t') :
    ∃ log', Alone exec held ⟨s.notifyAll client notif clients, log'⟩ t rest
      w' t' := by
  induction remaining : clients.card generalizing clients s log with
  | zero =>
      obtain rfl := Finset.card_eq_zero.mp remaining
      obtain ⟨c, s₁, t₁, after, executes, later⟩ := Alone.act_iff.mp alone
      simp only [exec] at executes
      split at executes
      · simp only [if_true, Option.some.injEq, Prod.mk.injEq] at executes
        obtain ⟨rfl, rfl, rfl⟩ := executes
        exact ⟨log, later⟩
      · simp at executes
      · simp at executes
  | succ n ih =>
      obtain ⟨c, s₁, t₁, after, executes, later⟩ := Alone.act_iff.mp alone
      simp only [exec] at executes
      split at executes
      · split at executes
        · next empty => simp [empty] at remaining
        · simp at executes
      · next receiver =>
          split at executes
          · next member =>
              have fewer : (clients.erase receiver).card = n := by
                rw [Finset.card_erase_of_mem member]
                omega
              rw [← notifyAll_erase member]
              split at executes
              · next same =>
                  simp only [Option.some.injEq, Prod.mk.injEq] at executes
                  obtain ⟨rfl, rfl, rfl⟩ := executes
                  have unchanged : Server.notifyOne client notif receiver s = s := by
                    simp [Server.notifyOne, same]
                  rw [unchanged]
                  exact ih later fewer
              · next different =>
                  split at executes
                  · next q subscriber =>
                      simp only [Option.some.injEq, Prod.mk.injEq] at executes
                      obtain ⟨rfl, rfl, rfl⟩ := executes
                      obtain ⟨fresh, c, s₂, t₂, after, pushes, later⟩ :=
                        Alone.guarded_iff.mp later
                      simp only [exec, Option.some.injEq, Prod.mk.injEq] at pushes
                      obtain ⟨rfl, rfl, rfl⟩ := pushes
                      have pushed : Server.notifyOne client notif receiver s =
                          s.push q notif := by
                        simp [Server.notifyOne, different, subscriber]
                      rw [pushed]
                      exact ih ((Alone.released_iff fresh).mp later) fewer
                  · next subscriber =>
                      simp only [Option.some.injEq, Prod.mk.injEq] at executes
                      obtain ⟨rfl, rfl, rfl⟩ := executes
                      have unchanged :
                          Server.notifyOne client notif receiver s = s := by
                        simp [Server.notifyOne, different, subscriber]
                      rw [unchanged]
                      exact ih later fewer
          · simp at executes
      · simp at executes

end Callbacks

/-! ## Streams -/

section Streams

variable {held : Set Lock} {w w' : Recorded} {t t' : HandlerLocals} {rest : Code}

/-- `open` sends the blocks of the file, unless its stream fails. -/
theorem alone_sendChunks {file : InputFile} (input : t.input = some file)
    (finished : file.atEnd = true →
      (w.server.disk.nodes file.node).contents.drop file.offset = [])
    (alone : Alone exec held w t (.act .sendChunks :: rest) w' t') :
    t'.status = some ⟨.internal, "Server failed to create the file."⟩ ∨
      ∃ input, Alone exec held w { t with
        sent := t.sent ++ ByteContents.blocks chunkSize (file.buffer ++
          (w.server.disk.nodes file.node).contents.drop file.offset)
        input := input
        status := some Status.OK } rest w' t' := by
  generalize codeEq : (.act .sendChunks :: rest : Code) = code at alone
  induction alone generalizing file with
  | done => cases codeEq
  | lock => cases codeEq
  | unlock => cases codeEq
  | @act held w t a choice later w₁ t₁ after w' t' executes goesOn ih =>
      obtain ⟨⟨rfl⟩, rfl⟩ := List.cons.inj codeEq
      simp only [exec, input] at executes
      split at executes
      · next amount =>
          split at executes
          · simp at executes
          next reads =>
          push Not at reads
          simp only [Option.some.injEq, Prod.mk.injEq] at executes
          obtain ⟨rfl, rfl, rfl⟩ := executes
          refine (ih rfl ?_ rfl).imp_right ?_
          · intro nothing
            have nothing : ((w.server.disk.nodes file.node).contents.drop
                file.offset).take amount = [] := of_decide_eq_true nothing
            have empty := (List.take_eq_nil_iff.mp nothing).resolve_left reads.2
            simp [empty]
          · rintro ⟨input, rest⟩
            refine ⟨input, ?_⟩
            have same : file.buffer ++ ((w.server.disk.nodes
                  file.node).contents.drop file.offset).take amount ++
                (w.server.disk.nodes file.node).contents.drop (file.offset +
                  (((w.server.disk.nodes file.node).contents.drop
                    file.offset).take amount).length) =
                file.buffer ++
                  (w.server.disk.nodes file.node).contents.drop file.offset := by
              rw [← List.drop_drop, List.append_assoc,
                List.prefix_iff_eq_append.mp (List.take_prefix ..)]
            rw [same] at rest
            exact rest
      · split at executes
        · next full =>
            simp only [Option.some.injEq, Prod.mk.injEq] at executes
            obtain ⟨rfl, rfl, rfl⟩ := executes
            refine (ih rfl finished rfl).imp_right ?_
            rintro ⟨input, rest⟩
            refine ⟨input, ?_⟩
            -- A block is full, or it is the last one.
            have next : ByteContents.blocks chunkSize (file.buffer ++
                  (w.server.disk.nodes file.node).contents.drop file.offset) =
                file.buffer.take chunkSize :: ByteContents.blocks chunkSize
                  (file.buffer.drop chunkSize ++
                    (w.server.disk.nodes file.node).contents.drop
                      file.offset) := by
              rcases full with full | ⟨atEnd, nonempty⟩
              · have nonempty : file.buffer ≠ [] := by
                  rintro empty
                  rw [empty] at full
                  exact absurd full (Nat.not_le_of_lt chunkSize_pos)
                rw [ByteContents.blocks_of_ne_nil chunkSize_pos
                    (by simp [nonempty]),
                  List.take_append_of_le_length full,
                  List.drop_append_of_le_length full]
              · rw [finished atEnd, List.append_nil, List.append_nil,
                  ByteContents.blocks_of_ne_nil chunkSize_pos nonempty]
            rw [next]
            simpa using rest
        · simp at executes
      · split at executes
        · next ended =>
            simp only [Option.some.injEq, Prod.mk.injEq] at executes
            obtain ⟨rfl, rfl, rfl⟩ := executes
            right
            refine ⟨some file, ?_⟩
            rw [finished ended.1, ended.2]
            simpa [← input] using goesOn
        · simp at executes
      · simp only [Option.some.injEq, Prod.mk.injEq] at executes
        obtain ⟨rfl, rfl, rfl⟩ := executes
        obtain ⟨rfl, rfl⟩ := Alone.nil_iff.mp goesOn
        exact .inl rfl
      · simp at executes

/-- `close` writes what its stream still buffers and what is to come. -/
theorem alone_receive {path : Path} {messages : List Bytes} {file : OutputFile}
    (opened : t.path = some path) (output : t.output = some file)
    (atEnd : (w.server.disk.nodes file.node).contents.length = file.offset)
    (alone : Alone exec held w t
      (.act (.receive path messages) :: .act .closeOutput :: rest) w' t') :
    ∃ log, Alone exec held
      ⟨{ w.server with
          disk := w.server.disk.writeAt file.node file.offset
            (file.buffer ++ messages.flatten) w.server.clock }, log⟩
      { t with output := none } rest w' t' := by
  generalize codeEq : (.act (.receive path messages) :: .act .closeOutput ::
    rest : Code) = code at alone
  induction alone generalizing file messages with
  | done => cases codeEq
  | lock => cases codeEq
  | unlock => cases codeEq
  | @act held w t a choice later w₁ t₁ after w' t' executes goesOn ih =>
      obtain ⟨⟨rfl⟩, rfl⟩ := List.cons.inj codeEq
      simp only [exec, opened, output] at executes
      split at executes
      · simp only [Option.some.injEq, Prod.mk.injEq] at executes
        obtain ⟨rfl, rfl, rfl⟩ := executes
        have closes (choice : Choice) : exec .closeOutput choice w t rest = some
            (⟨{ w.server with
                disk := w.server.disk.writeAt file.node file.offset file.buffer
                  w.server.clock },
              if file.buffer = [] then w.log else .modified path :: w.log⟩,
              { t with output := none }, rest) := by
          simp only [exec, opened, output]
        simpa using ⟨_, Alone.of_act closes goesOn⟩
      · next message messages =>
          simp only [Option.some.injEq, Prod.mk.injEq] at executes
          obtain ⟨rfl, rfl, rfl⟩ := executes
          have received := ih rfl rfl atEnd rfl
          simpa [opened] using received
      · simp at executes
      · next amount =>
          split at executes
          · simp at executes
          next some =>
          simp only [Option.some.injEq, Prod.mk.injEq] at executes
          obtain ⟨rfl, rfl, rfl⟩ := executes
          obtain ⟨log, received⟩ := ih rfl rfl (by
            rw [FileStore.contents_writeAt_self, ← atEnd,
              ByteContents.overlay_length_self, List.length_append]) rfl
          refine ⟨log, ?_⟩
          dsimp only at received
          rw [FileStore.writeAt_writeAt atEnd, ← List.append_assoc,
            List.take_append_drop] at received
          simpa [opened] using received
      · simp at executes

end Streams

end DistributedFilesystem
