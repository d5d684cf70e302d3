import SignedFirmware.Proofs.Wire.Standing

namespace SignedFirmware

/-- This puts zeros at the given places of a byte string. -/
def clearAt (places : List Nat) (bytes : Bytes) : Bytes :=
  bytes.mapIdx fun place byte => if place ∈ places then 0 else byte

@[simp] theorem length_clearAt (places : List Nat) (bytes : Bytes) :
    (clearAt places bytes).length = bytes.length := by
  simp [clearAt]

namespace Field

/-- The number of reserved bytes of a field. -/
def reservedLength : Field → Nat
  | .zeros count => count
  | _ => 0

/-- The places of the reserved bytes of fields that stand from `start` on. -/
def reserved (start : Nat) : List Field → List Nat
  | [] => []
  | field :: rest =>
      List.range' start field.reservedLength ++ reserved (start + field.encode.length) rest

theorem reservedLength_le (field : Field) : field.reservedLength ≤ field.encode.length := by
  cases field <;> simp [reservedLength, encode]

theorem reserved_append (start : Nat) (front back : List Field) :
    reserved start (front ++ back) =
      reserved start front ++ reserved (start + (encodeAll front).length) back := by
  induction front generalizing start with
  | nil => simp [reserved]
  | cons field rest ih =>
      rw [List.cons_append, reserved, reserved, ih, encodeAll_cons, List.length_append,
        List.append_assoc, Nat.add_assoc]

/-- Fields without reserved bytes have no reserved places. -/
theorem reserved_eq_nil {fields : List Field} (used : ∀ field ∈ fields, field.reservedLength = 0)
    (start : Nat) : reserved start fields = [] := by
  induction fields generalizing start with
  | nil => rfl
  | cons field rest ih =>
      obtain ⟨first, others⟩ := List.forall_mem_cons.1 used
      rw [reserved, first, ih others]
      rfl

theorem le_of_mem_reserved {start place : Nat} {fields : List Field}
    (member : place ∈ reserved start fields) : start ≤ place := by
  induction fields generalizing start with
  | nil => cases member
  | cons field rest ih =>
      rcases List.mem_append.1 member with here | later
      · exact (List.mem_range'_1.1 here).1
      · have after := ih later
        omega

/-- A field is written with its bytes, or with zeros if it is reserved. -/
theorem getElem?_encode_of_accepts {field : Field} {bytes : Bytes} (accepted : field.Accepts bytes)
    (place : Nat) : field.encode[place]? =
      bytes[place]?.map fun byte => if place < field.reservedLength then 0 else byte := by
  cases field with
  | zeros count =>
      have length : bytes.length = count := accepted
      subst length
      by_cases inside : place < bytes.length
      · simp [encode, zeroBytes, reservedLength, inside]
      · simp [encode, zeroBytes, Nat.le_of_not_lt inside]
  | _ =>
      rw [Accepts.eq_2 _ _ (by simp)] at accepted
      simp [accepted, reservedLength]

/-- The fields are written with their bytes but for the reserved ones. -/
theorem getElem?_encodeAll_of_lead {fields : List Field} {bytes rest : Bytes}
    (leads : Lead fields bytes rest) (start : Nat) {place : Nat}
    (inside : place < (encodeAll fields).length) : (encodeAll fields)[place]? =
      bytes[place]?.map fun byte => if start + place ∈ reserved start fields then 0 else byte := by
  induction fields generalizing bytes start place with
  | nil => simp at inside
  | cons field more ih =>
      obtain ⟨front, back, accepted, rfl, follows⟩ := leads
      have length := length_of_accepts accepted
      have short := field.reservedLength_le
      rw [encodeAll_cons, List.length_append] at inside
      by_cases here : place < front.length
      · rw [encodeAll_cons, List.getElem?_append_left (by omega),
          List.getElem?_append_left here, getElem?_encode_of_accepts accepted]
        have place_iff : start + place ∈ reserved start (field :: more) ↔
            place < field.reservedLength := by
          rw [reserved, List.mem_append, List.mem_range'_1]
          constructor
          · rintro (within | later)
            · omega
            · have after := le_of_mem_reserved later
              omega
          · intro within
            exact .inl (by omega)
        simp only [place_iff]
      · obtain ⟨later, rfl⟩ := Nat.exists_eq_add_of_le (Nat.le_of_not_lt here)
        rw [encodeAll_cons, List.getElem?_append_right (by omega),
          List.getElem?_append_right (Nat.le_add_right _ _), ← length, Nat.add_sub_cancel_left,
          ih follows (start + front.length) (by omega)]
        have place_iff : start + (front.length + later) ∈ reserved start (field :: more) ↔
            start + front.length + later ∈ reserved (start + front.length) more := by
          rw [reserved, List.mem_append, List.mem_range'_1, ← length, ← Nat.add_assoc]
          exact or_iff_right (by omega)
        simp only [place_iff]

/-- The bytes of fields are written back with zeros at the reserved places. -/
theorem encodeAll_of_lead {fields : List Field} {bytes : Bytes} (leads : Lead fields bytes []) :
    encodeAll fields = clearAt (reserved 0 fields) bytes := by
  have length := length_of_lead leads
  rw [List.length_nil, Nat.add_zero] at length
  apply List.ext_getElem?
  intro place
  by_cases inside : place < (encodeAll fields).length
  · rw [getElem?_encodeAll_of_lead leads 0 inside, clearAt, List.getElem?_mapIdx, Nat.zero_add]
  · rw [List.getElem?_eq_none (Nat.le_of_not_lt inside),
      List.getElem?_eq_none (by rw [length_clearAt]; omega)]

/-- What stands before other bytes stands there as well when nothing follows. -/
theorem Lead.append {fields : List Field} {bytes : Bytes} (leads : Lead fields bytes [])
    (rest : Bytes) : Lead fields (bytes ++ rest) rest := by
  induction fields generalizing bytes with
  | nil =>
      obtain rfl : bytes = [] := leads
      rfl
  | cons field more ih =>
      obtain ⟨front, back, accepted, rfl, follows⟩ := leads
      exact ⟨front, back ++ rest, accepted, List.append_assoc _ _ _, ih follows⟩

/-- Structures of which each stands in its own bytes stand one after the other. -/
theorem lead_flatMap {α : Type} {fields : α → List Field} {values : List α} {shown : Nat → Bytes}
    (stand : ∀ index (inside : index < values.length),
      Lead (fields values[index]) (shown index) []) :
    Lead (values.flatMap fields) ((List.range values.length).flatMap shown) [] := by
  induction values generalizing shown with
  | nil => rfl
  | cons value rest ih =>
      have first := stand 0 (Nat.succ_pos _)
      have others := @ih (fun index => shown (index + 1)) fun index inside =>
        stand (index + 1) (Nat.succ_lt_succ inside)
      rw [List.length_cons, List.range_succ_eq_map, List.flatMap_cons, List.flatMap_cons,
        List.flatMap_map]
      exact lead_append.2 ⟨_, first.append _, others⟩

end Field

namespace Sink

/-- A sink that grows takes every piece. -/
theorem writePieces_growing (pieces : List Bytes) (written : Bytes) :
    writePieces pieces ⟨written, none⟩ = .ok () ⟨written ++ pieces.flatten, none⟩ := by
  induction pieces generalizing written with
  | nil =>
      rw [List.flatten_nil, List.append_nil]
      rfl
  | cons piece rest ih =>
      have first : writePiece piece ⟨written, none⟩ = .ok () ⟨written ++ piece, none⟩ := rfl
      rw [writePieces, device_bind_of_ok first, ih, List.flatten_cons, List.append_assoc]

/-- A sink that grows takes all fields, one after the other. -/
theorem writeAll_growing (fields : List Field) :
    writeAll fields growing = .ok () ⟨Field.encodeAll fields, none⟩ := by
  rw [writeAll_eq, growing, writePieces_growing, List.nil_append, Field.flatten_flatMap_pieces]

end Sink

end SignedFirmware
