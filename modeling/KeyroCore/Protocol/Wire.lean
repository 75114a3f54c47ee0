import KeyroCore.Data.Lines
import KeyroCore.Protocol.Encode
import KeyroCore.Reference

/-!
# The wire

Server messages are written one after the other to a byte stream, each as JSON on a line of its own.
Split at its newlines and decoded line by line, the stream gives the messages back; so does a line
with a client envelope.
-/

namespace KeyroCore

/-- `serde_json::to_string` prints the value on one line, and parsing reads it back. -/
structure SerdeJson.Prints [SerdeJson] (print : Json → String) (json : Json) : Prop where
  inverts : SerdeJson.parse (print json) = some json
  oneLine : '\n' ∉ (print json).toList

def encodeServerMessage (print : Json → String) (message : ServerMessage) : String :=
  print message.serialize

/-- The stream after `writeln!(writer, "{encoded}")`. -/
def writeProtocolMessage (print : Json → String) (stream : List UInt8) (message : ServerMessage) :
    List UInt8 := stream ++ Lines.utf8 (encodeServerMessage print message ++ "\n")

/-- A line of the stream, read as Studio reads it. -/
def decodeServerMessage [SerdeJson] (line : List UInt8) : Option ServerMessage := do
  ServerMessage.deserialize (← SerdeJson.parse (← Lines.ofUtf8? line))

theorem foldl_writeProtocolMessage (print : Json → String) (stream : List UInt8)
    (messages : List ServerMessage) : messages.foldl (writeProtocolMessage print) stream =
      stream ++ (messages.map fun m => Lines.utf8 (encodeServerMessage print m)).flatMap
        (· ++ [10]) := by
  induction messages generalizing stream with
  | nil => exact (List.append_nil _).symm
  | cons message messages ih =>
    rw [List.foldl_cons, ih, writeProtocolMessage, Lines.utf8_append, List.append_assoc,
      List.map_cons, List.flatMap_cons]
    rfl

section Lossless

variable [SerdeJson] {print : Json → String}

theorem decodeServerMessage_encode {message : ServerMessage}
    (prints : SerdeJson.Prints print message.serialize) :
    decodeServerMessage (Lines.utf8 (encodeServerMessage print message)) = some message := by
  unfold decodeServerMessage encodeServerMessage
  rw [Lines.ofUtf8?_utf8]
  show (SerdeJson.parse (print message.serialize)).bind _ = _
  rw [prints.inverts]
  exact message.deserialize_serialize

theorem decode_stream {messages : List ServerMessage}
    (prints : ∀ message ∈ messages, SerdeJson.Prints print message.serialize) :
    (Lines.lines (messages.foldl (writeProtocolMessage print) [])).mapM decodeServerMessage =
      some messages := by
  rw [foldl_writeProtocolMessage, List.nil_append, Lines.lines_flatMap]
  · refine Serde.mapM_eq_some ?_
    rw [List.forall₂_map_left_iff]
    refine List.forall₂_same.2 fun message mem => ?_
    exact decodeServerMessage_encode (prints message mem)
  · intro line mem
    obtain ⟨message, known, rfl⟩ := List.mem_map.1 mem
    rw [Lines.newline_mem_utf8_iff]
    exact (prints message known).oneLine

end Lossless

/-- The stream that `write_protocol_message` produces is decoded line by line to the messages it was
written from, and an envelope whose request id is not blank is decoded to itself. -/
theorem wire_format_lossless [SerdeJson] (print : Json → String) :
    (∀ messages : List ServerMessage,
      (∀ message ∈ messages, SerdeJson.Prints print message.serialize) →
        (Lines.lines (messages.foldl (writeProtocolMessage print) [])).mapM decodeServerMessage =
          some messages) ∧
    ∀ envelope : ClientEnvelope, SerdeJson.Prints print envelope.serialize →
      isBlank envelope.requestId = false →
        decodeClientEnvelope (print envelope.serialize) = .ok envelope := by
  refine ⟨fun messages => decode_stream, fun envelope prints named => ?_⟩
  rw [decodeClientEnvelope_ok_iff]
  exact ⟨named, _, prints.inverts, envelope.deserialize_serialize⟩

open Reference in
/-- An action event and an error that answers no request, and a line that presses a key. -/
theorem wire_format_lossless_example :
    let print := fun json => String.ofList (renderJson json)
    let messages : List ServerMessage :=
      [.actionEvent (.succeeded "1"), .error none ⟨.unknownMessage, "unknown"⟩]
    let envelope : ClientEnvelope := ⟨"2", .virtualControlInput (.key 0 1)⟩
    (Lines.lines (messages.foldl (writeProtocolMessage print) [])).mapM decodeServerMessage =
        some messages ∧ decodeClientEnvelope (print envelope.serialize) = .ok envelope := by
  intro print messages envelope
  obtain ⟨stream, line⟩ := wire_format_lossless print
  have event : SerdeJson.Prints print (messages.get ⟨0, by decide⟩).serialize :=
    ⟨by decide +kernel, by decide +kernel⟩
  have error : SerdeJson.Prints print (messages.get ⟨1, by decide⟩).serialize :=
    ⟨by decide +kernel, by decide +kernel⟩
  refine ⟨stream messages (List.forall_mem_cons.2 ⟨event, List.forall_mem_singleton.2 error⟩), ?_⟩
  exact line envelope ⟨by decide +kernel, by decide +kernel⟩ (by decide)

end KeyroCore
