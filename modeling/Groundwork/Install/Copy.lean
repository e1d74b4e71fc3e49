import Groundwork.Machine.Action
/-!
Copying the content of one partition to another, chunk by chunk.
-/
namespace Groundwork.Copy

/-- The bytes of a chunk. -/
def chunkSize : Nat := 1024 * 1024

/-- How many chunks go by from one report of the progress to the next. -/
def chunksPerReport : Nat := 10

/-- Fills a chunk from a position of the source on. A read that brings nothing ends the chunk.
Returns the chunk and the deliveries still to come. -/
def fillChunk (content : ByteArray) :
    (position room : Nat) → List Delivery → ByteArray × List Delivery
  | position, room, [] => (content.extract position (position + room), [])
  | position, room, d :: ds =>
    if room = 0 then (.empty, d :: ds)
    else match d with
      | .interrupted => fillChunk content position room ds
      | .upTo count =>
        let piece := content.extract position (position + min count room)
        if piece.size = 0 then (.empty, ds)
        else
          let (rest, ds) := fillChunk content (position + piece.size) (room - piece.size) ds
          (piece ++ rest, ds)

theorem size_fillChunk_le (content : ByteArray) (position room : Nat) (ds : List Delivery) :
    (fillChunk content position room ds).1.size ≤ min room (content.size - position) := by
  induction ds generalizing position room with
  | nil =>
    simp only [fillChunk, ByteArray.size_extract]
    omega
  | cons d ds ih =>
    simp only [fillChunk]
    split
    · simp
    · cases d with
      | interrupted => exact ih position room
      | upTo count =>
        simp only
        split
        · simp
        · have hrest := ih (position + (content.extract position (position + min count room)).size)
            (room - (content.extract position (position + min count room)).size)
          simp only [ByteArray.size_append, ByteArray.size_extract] at hrest ⊢
          omega

/-- The chunks of a source from a position on. -/
def chunks (content : ByteArray) (position : Nat) (ds : List Delivery) : List ByteArray :=
  if (fillChunk content position chunkSize ds).1.size = 0 then []
  else
    (fillChunk content position chunkSize ds).1 ::
      chunks content (position + (fillChunk content position chunkSize ds).1.size)
        (fillChunk content position chunkSize ds).2
termination_by content.size - position
decreasing_by
  have := size_fillChunk_le content position chunkSize ds
  omega

/-- What a content becomes when bytes are written over it from a position on. -/
def overwritten (old : ByteArray) (position : Nat) (bytes : ByteArray) : ByteArray :=
  old.extract 0 position ++ bytes ++ old.extract (position + bytes.size) old.size

/-- Writes bytes to a position of a file that has to be there. -/
def writeAt (target : String) (position : Nat) (bytes : ByteArray) (t : FileTree) :
    Except SystemError FileTree := do
  let (place, old, _) ← t.openExisting target
  .ok (t.refill place (overwritten old position bytes))

/-- Tells of the progress if the chunks so far make up full groups. -/
def report (size position count : Nat) : Action Unit :=
  if count % chunksPerReport = 0 then Action.tell (.progress position size) else return

/-- Writes chunks one after the other, with a report after each full group of them. Returns the
position behind the last chunk. -/
def writeChunks (target : String) (size : Nat) :
    (position count : Nat) → List ByteArray → Action Nat
  | position, _, [] => return position
  | position, count, chunk :: rest => do
    Action.alter target (writeAt target position chunk)
    report size (position + chunk.size) (count + 1)
    writeChunks target size (position + chunk.size) (count + 1) rest

/-- Copies a file over another one, which keeps what it has beyond the length of the first. -/
def contents (env : Environment) (source target : String) : Action Unit := do
  let _ ← Action.consult (·.find source true)
  let _ ← Action.consult (·.openExisting target)
  let content ← Action.consult (·.read source)
  let copied ← writeChunks target content.size 0 0 (chunks content 0 (env.deliveries source))
  if copied < content.size then throw (.incompleteCopy source copied content.size)

end Groundwork.Copy
