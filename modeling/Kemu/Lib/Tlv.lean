import Mathlib.Data.List.Basic

/-!
# Tag-length-value lists

A field is a tag, the length of its value in one byte, and the value.  A list
of fields ends with a tag of its own, behind which there is no length.

Reading a list back succeeds exactly on what writing gives, for fields whose
values have a length of one byte and whose tags do not end the list.
-/

namespace Kemu.Lib.Tlv

/-- A field of a list. -/
structure TagValue where
  tag : UInt8
  value : List UInt8
deriving DecidableEq, Repr

/-- The bytes of a field. -/
def TagValue.encode (field : TagValue) : List UInt8 :=
  field.tag :: UInt8.ofNat field.value.length :: field.value

/-- The bytes of fields, one behind the other. -/
def encode (fields : List TagValue) : List UInt8 :=
  fields.flatMap TagValue.encode

/-- A field that can be read back. -/
structure TagValue.Readable (stop : UInt8) (field : TagValue) : Prop where
  short : field.value.length < 256
  goesOn : field.tag ≠ stop

/-- Read a length and the value it is for. -/
def readValue : List UInt8 → Option (List UInt8 × List UInt8)
  | [] => none
  | len :: rest =>
      if rest.length < len.toNat then
        none
      else
        some (rest.take len.toNat, rest.drop len.toNat)

/-- Read so many fields at most; what is behind the end is left. -/
def parseLoop (stop : UInt8) :
    Nat → List UInt8 → Option (List TagValue × List UInt8)
  | 0, _ => none
  | _ + 1, [] => none
  | fuel + 1, tag :: rest =>
      if tag = stop then
        some ([], rest)
      else
        (readValue rest).bind fun value =>
          (parseLoop stop fuel value.2).map fun read =>
            (⟨tag, value.1⟩ :: read.1, read.2)

/-- Read a list up to its end. -/
def parse (stop : UInt8) (bytes : List UInt8) :
    Option (List TagValue × List UInt8) :=
  parseLoop stop bytes.length bytes

@[simp]
theorem encode_nil : encode [] = [] :=
  rfl

theorem encode_cons (field : TagValue) (fields : List TagValue) :
    encode (field :: fields) = field.encode ++ encode fields :=
  rfl

theorem encode_append (first second : List TagValue) :
    encode (first ++ second) = encode first ++ encode second :=
  List.flatMap_append

theorem length_le_encode (fields : List TagValue) :
    fields.length ≤ (encode fields).length := by
  induction fields with
  | nil => exact Nat.le_refl _
  | cons field rest induction =>
      rw [encode_cons, List.length_append, List.length_cons, TagValue.encode,
        List.length_cons]
      omega

variable {stop : UInt8}

theorem readValue_iff {bytes value behind : List UInt8} :
    readValue bytes = some (value, behind) ↔
      value.length < 256 ∧
        bytes = UInt8.ofNat value.length :: (value ++ behind) := by
  constructor
  · intro read
    match bytes with
    | [] => cases read
    | len :: rest =>
        rw [readValue] at read
        split at read
        next => cases read
        next holds =>
          cases read
          have length : (rest.take len.toNat).length = len.toNat :=
            List.length_take_of_le (Nat.not_lt.1 holds)
          rw [length, List.take_append_drop, UInt8.ofNat_toNat]
          exact ⟨len.toNat_lt, rfl⟩
  · rintro ⟨short, rfl⟩
    have length :
        (UInt8.ofNat value.length).toNat = value.length := by
      rw [UInt8.toNat_ofNat']
      exact Nat.mod_eq_of_lt short
    rw [readValue, length, if_neg (by rw [List.length_append]; omega),
      List.take_left, List.drop_left]

theorem parseLoop_encode {fields : List TagValue}
    (readable : ∀ field ∈ fields, field.Readable stop)
    (behind : List UInt8) {fuel : Nat} (enough : fields.length < fuel) :
    parseLoop stop fuel (encode fields ++ stop :: behind) =
      some (fields, behind) := by
  induction fields generalizing fuel with
  | nil =>
      obtain ⟨less, rfl⟩ :=
        Nat.exists_eq_succ_of_ne_zero (Nat.ne_zero_of_lt enough)
      rw [encode_nil, List.nil_append, parseLoop, if_pos rfl]
  | cons field rest induction =>
      obtain ⟨less, rfl⟩ :=
        Nat.exists_eq_succ_of_ne_zero (Nat.ne_zero_of_lt enough)
      have first := readable field List.mem_cons_self
      have others :
          parseLoop stop less (encode rest ++ stop :: behind) =
            some (rest, behind) :=
        induction (List.forall_mem_cons.mp readable).2
          (Nat.lt_of_succ_lt_succ enough)
      have value :
          readValue
              (UInt8.ofNat field.value.length ::
                (field.value ++ (encode rest ++ stop :: behind))) =
            some (field.value, encode rest ++ stop :: behind) :=
        readValue_iff.2 ⟨first.short, rfl⟩
      rw [encode_cons, TagValue.encode, List.append_assoc, List.cons_append,
        List.cons_append, parseLoop, if_neg first.goesOn, value,
        Option.bind_some, others]
      rfl

theorem encode_of_parseLoop {fuel : Nat} {bytes behind : List UInt8}
    {fields : List TagValue}
    (read : parseLoop stop fuel bytes = some (fields, behind)) :
    bytes = encode fields ++ stop :: behind ∧
      ∀ field ∈ fields, field.Readable stop := by
  induction fuel generalizing bytes fields with
  | zero => cases read
  | succ fuel induction =>
      match bytes with
      | [] => cases read
      | tag :: rest =>
          rw [parseLoop] at read
          split at read
          next ends =>
            cases read
            exact ⟨by rw [ends, encode_nil, List.nil_append], nofun⟩
          next goesOn =>
            rw [Option.bind_eq_some_iff] at read
            obtain ⟨⟨value, after⟩, valued, later⟩ := read
            rw [Option.map_eq_some_iff] at later
            obtain ⟨⟨others, left⟩, later, same⟩ := later
            cases same
            obtain ⟨short, rfl⟩ := readValue_iff.1 valued
            obtain ⟨bytes, readable⟩ := induction later
            constructor
            · dsimp only at bytes
              rw [bytes, encode_cons, TagValue.encode, List.append_assoc,
                List.cons_append, List.cons_append]
            · intro field member
              rcases List.mem_cons.1 member with rfl | other
              · exact ⟨short, goesOn⟩
              · exact readable field other

/-- Reading gives fields exactly on the bytes that these are written as. -/
theorem parse_eq_some_iff {bytes behind : List UInt8}
    {fields : List TagValue} :
    parse stop bytes = some (fields, behind) ↔
      bytes = encode fields ++ stop :: behind ∧
        ∀ field ∈ fields, field.Readable stop := by
  constructor
  · exact encode_of_parseLoop
  · rintro ⟨rfl, readable⟩
    apply parseLoop_encode readable
    have short := length_le_encode fields
    rw [List.length_append, List.length_cons]
    omega

end Kemu.Lib.Tlv
