import DistributedFilesystem.ClientOperations
import DistributedFilesystem.PathKeys

/-!
# The callbacks on open files

What the kernel calls to open, read, write and release a file.  A callback
splits its path into a directory and a name for the client, converts sizes and
offsets to the types of the client's functions, and turns a failure into a
negative number.  No callback looks at the handle of the open file.
-/

namespace DistributedFilesystem

/-- `ENOENT` -/
def noEntry : Int := 2

/-- `EACCES` -/
def accessDenied : Int := 13

/-- The conversion to `int`. -/
def intOf (n : Int) : Int := n.bmod (2 ^ 32)

namespace Mount

variable {σ : Type*} (mount : Mount) (remote : Remote σ)
variable (answers : LocalAnswers) (path : String)

/-- The server path of the file that a callback is called for. -/
def callbackKey : Path :=
  mount.locateOnServer (callbackFilename path) (callbackDirectory path)

/-- `afs_open`; `truncate` is the flag `O_TRUNC`. -/
def afsOpen (truncate : Bool) (client : Client) (r : σ) :
    (Client × σ) × Int :=
  let truncated :=
    if truncate then
      client.truncateFile answers
        (mount.resolveServerPath (callbackDirectory path))
        (callbackFilename path) 0
    else (client, true)
  if truncated.2 then
    let opened := truncated.1.openFile remote answers (mount.callbackKey path) r
    (opened.1, if opened.2 then 0 else -accessDenied)
  else ((truncated.1, r), -noEntry)

/-- `afs_read`: what it copies to the kernel's buffer, and what it returns;
`none` when an exception ends the process. -/
def afsRead (size : Nat) (offset : Int) (client : Client) :
    Client × Option (Bytes × Int) :=
  match client.readFile (mount.callbackKey path) (intOf size).toNat
      (intOf offset) with
  | (client', some buffer) =>
      -- `buffer.resize` throws on a negative size.
      if intOf size < 0 then (client, none)
      else (client', some (buffer, buffer.length))
  | (client', none) => (client', some ([], -accessDenied))

/-- `afs_truncate` -/
def afsTruncate (size : Int) (client : Client) : Client × Int :=
  let truncated := client.truncateFile answers
    (mount.resolveServerPath (callbackDirectory path)) (callbackFilename path)
    (intOf size)
  (truncated.1, if truncated.2 then 0 else -noEntry)

/-- `afs_write` -/
def afsWrite (data : Bytes) (offset : Int) (client : Client) : Client × Int :=
  let written := client.writeFile answers (mount.callbackKey path) data offset
  (written.1, if written.2 then intOf data.length else -accessDenied)

/-- `afs_release`, which always returns 0. -/
def afsRelease (client : Client) (r : σ) : Client × σ :=
  let filename := callbackFilename path
  let directory := callbackDirectoryOrEmpty path
  (client.closeFile remote answers (mount.locateOnServer filename directory) r).1

/-- The root directory is resolved alike in both spellings. -/
theorem resolveServerPath_callbackDirectoryOrEmpty :
    mount.resolveServerPath (callbackDirectoryOrEmpty path) =
      mount.resolveServerPath (callbackDirectory path) := by
  unfold callbackDirectoryOrEmpty
  split
  · next isRoot =>
      apply String.toList_injective
      rw [mount.toList_resolveServerPath_root (.inl rfl),
        mount.toList_resolveServerPath_root isRoot]
  · rfl

/-- `afs_release` closes the file that the other callbacks work on. -/
theorem afsRelease_eq (client : Client) (r : σ) :
    mount.afsRelease remote answers path client r =
      (client.closeFile remote answers (mount.callbackKey path) r).1 := by
  simp only [afsRelease, callbackKey, locateOnServer,
    resolveServerPath_callbackDirectoryOrEmpty]

end Mount

end DistributedFilesystem
