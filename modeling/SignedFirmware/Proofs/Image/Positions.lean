import SignedFirmware.Image.Scan
import SignedFirmware.Proofs.Memory

namespace SignedFirmware

namespace Offset

theorem dvd_roundUp (number step : Nat) : step ∣ roundUp number step :=
  Nat.dvd_mul_left step _

/-- Rounding up stops at the first multiple. -/
theorem roundUp_le {number step position : Nat} (positive : 0 < step) (multiple : step ∣ position)
    (low : number ≤ position) : roundUp number step ≤ position := by
  obtain ⟨count, rfl⟩ := multiple
  have quotient : (number + (step - 1)) / step < count + 1 := by
    apply Nat.div_lt_of_lt_mul
    rw [Nat.mul_add, Nat.mul_one]
    omega
  calc
    roundUp number step ≤ count * step := Nat.mul_le_mul_right step (Nat.le_of_lt_succ quotient)
    _ = step * count := Nat.mul_comm count step

/-- Between two neighbouring multiples there is no other one. -/
theorem add_le_of_dvd {step low high : Nat} (lowMultiple : step ∣ low)
    (highMultiple : step ∣ high) (less : low < high) : low + step ≤ high := by
  have gap := Nat.le_of_dvd (by omega) (Nat.dvd_sub highMultiple lowMultiple)
  omega

end Offset

namespace Scan

/-- The magic word stands at a multiple of the alignment and ends by `stop`. -/
def Hit (flash : Flash) (alignment : Nat) (magic : UInt64) (stop position : Nat) : Prop :=
  alignment ∣ position ∧ position + magicLength ≤ stop ∧
    flash.number position magicLength = .ok magic.toNat

instance (flash : Flash) (alignment : Nat) (magic : UInt64) (stop position : Nat) :
    Decidable (Hit flash alignment magic stop position) :=
  have same : (flash.number position magicLength).toOption = some magic.toNat ↔
      flash.number position magicLength = .ok magic.toNat := by
    cases flash.number position magicLength <;> simp [Except.toOption]
  have : Decidable (flash.number position magicLength = .ok magic.toNat) :=
    decidable_of_iff _ same
  inferInstanceAs (Decidable (_ ∧ _ ∧ _))

/-- All hits from `floor` on, in order. -/
def hits (flash : Flash) (alignment : Nat) (magic : UInt64) (stop floor : Nat) : List Nat :=
  (List.range' floor (stop - floor)).filter fun position => Hit flash alignment magic stop position

variable {flash : Flash} {alignment : Nat} {magic : UInt64} {stop floor position : Nat}

theorem mem_hits :
    position ∈ hits flash alignment magic stop floor ↔
      floor ≤ position ∧ Hit flash alignment magic stop position := by
  rw [hits, List.mem_filter, List.mem_range'_1, decide_eq_true_eq]
  constructor
  · intro given
    rcases given with ⟨range, hit⟩
    exact ⟨range.1, hit⟩
  · intro given
    rcases given with ⟨low, hit⟩
    have room := hit.2.1
    rw [magicLength] at room
    exact ⟨⟨low, by omega⟩, hit⟩

theorem hits_of_hit (hit : Hit flash alignment magic stop floor) :
    hits flash alignment magic stop floor =
      floor :: hits flash alignment magic stop (floor + 1) := by
  have room := hit.2.1
  rw [magicLength] at room
  obtain ⟨count, more⟩ := Nat.exists_eq_add_of_lt (show floor < stop by omega)
  rw [hits, hits, show stop - floor = count + 1 by omega, List.range'_succ,
    List.filter_cons_of_pos (by simpa using hit), show stop - (floor + 1) = count by omega]

theorem hits_of_not_hit (miss : ¬ Hit flash alignment magic stop floor) :
    hits flash alignment magic stop floor = hits flash alignment magic stop (floor + 1) := by
  by_cases inside : floor < stop
  · obtain ⟨count, more⟩ := Nat.exists_eq_add_of_lt inside
    rw [hits, hits, show stop - floor = count + 1 by omega, List.range'_succ,
      List.filter_cons_of_neg (by simpa using miss), show stop - (floor + 1) = count by omega]
  · rw [hits, hits, show stop - floor = 0 by omega, show stop - (floor + 1) = 0 by omega]
    rfl

/-- A floor can be raised over offsets that are no hits. -/
theorem hits_raise {high : Nat} (raise : floor ≤ high)
    (misses : ∀ position, floor ≤ position → position < high →
      ¬ Hit flash alignment magic stop position) :
    hits flash alignment magic stop floor = hits flash alignment magic stop high := by
  obtain ⟨count, rfl⟩ := Nat.exists_eq_add_of_le raise
  induction count with
  | zero => rfl
  | succ count ih =>
      rw [ih (by omega) fun position low below => misses position low (by omega),
        hits_of_not_hit (misses (floor + count) (by omega) (by omega))]
      rfl

/-- There are no hits where there is no room for the magic word. -/
theorem hits_eq_nil (short : stop < floor + magicLength) :
    hits flash alignment magic stop floor = [] := by
  rw [hits, List.filter_eq_nil_iff]
  intro position member
  rw [List.mem_range'_1] at member
  rw [decide_eq_true_eq]
  intro hit
  have room := hit.2.1
  omega

/-- The first hit comes before all hits after it. -/
theorem hits_eq_cons {rest : List Nat}
    (listed : hits flash alignment magic stop floor = position :: rest) :
    Hit flash alignment magic stop position ∧ floor ≤ position ∧
      rest = hits flash alignment magic stop (position + 1) := by
  induction left : stop - floor generalizing floor with
  | zero =>
      rw [hits_eq_nil (by rw [magicLength]; omega)] at listed
      cases listed
  | succ left ih =>
      by_cases hit : Hit flash alignment magic stop floor
      · rw [hits_of_hit hit] at listed
        obtain ⟨rfl, rfl⟩ := List.cons.inj listed
        exact ⟨hit, Nat.le_refl _, rfl⟩
      · rw [hits_of_not_hit hit] at listed
        obtain ⟨found, low, more⟩ := ih listed (by omega)
        exact ⟨found, by omega, more⟩

/-- The next hit is at least a step of the alignment away. -/
theorem hits_step (multiple : alignment ∣ position) (positive : 0 < alignment) :
    hits flash alignment magic stop (position + 1) =
      hits flash alignment magic stop (position + alignment) := by
  apply hits_raise (by omega)
  intro other low below hit
  have next := Offset.add_le_of_dvd multiple hit.1 (by omega)
  omega

/-- The search from a multiple of the alignment answers with the first hit. -/
theorem findFrom_eq (positive : 0 < alignment) (multiple : alignment ∣ position)
    (readable : ∀ other, position ≤ other → other + magicLength ≤ stop →
      ∃ word, flash.number other magicLength = .ok word) :
    findFrom flash alignment magic position stop =
      match hits flash alignment magic stop position with
      | [] => reject .failedToLocateMagic
      | found :: _ => .ok found := by
  fun_induction findFrom flash alignment magic position stop with
  | case1 position inside halt failed =>
      have counted : Offset.sub stop position = .ok (stop - position) :=
        Offset.sub_eq_ok.2 ⟨by omega, rfl⟩
      rw [counted] at failed
      cases failed
  | case2 position inside left counted short =>
      obtain ⟨-, rfl⟩ := Offset.sub_eq_ok.1 counted
      rw [hits_eq_nil (by omega)]
  | case3 position inside left counted long error failed =>
      obtain ⟨-, rfl⟩ := Offset.sub_eq_ok.1 counted
      obtain ⟨word, answer⟩ := readable position (Nat.le_refl _) (by omega)
      rw [answer] at failed
      cases failed
  | case4 position inside left counted long answer =>
      obtain ⟨-, rfl⟩ := Offset.sub_eq_ok.1 counted
      rw [hits_of_hit ⟨multiple, by omega, answer⟩]
  | case5 position inside left counted long word answer other ih =>
      have miss : ¬ Hit flash alignment magic stop position := by
        intro hit
        rw [hit.2.2] at answer
        exact other (Except.ok.inj answer).symm
      rw [hits_of_not_hit miss, hits_step multiple positive]
      exact ih (Nat.dvd_add_right multiple |>.2 (Nat.dvd_refl _)) fun next low high =>
        readable next (by omega) high
  | case6 position outside =>
      rw [hits_eq_nil (by rw [magicLength]; omega)]

/-- A search in a readable part of the flash answers with its first hit. -/
theorem find_eq {range bounds : Span} {step : UInt32} (readable : flash.Readable bounds)
    (nonempty : range.start < range.stop)
    (part : bounds.start ≤ range.start ∧ range.stop ≤ bounds.stop)
    (power : step.toNat.isPowerOfTwo) :
    find flash range step magic bounds =
      match hits flash step.toNat magic range.stop.toNat range.start.toNat with
      | [] => reject .failedToLocateMagic
      | found :: _ => .ok found := by
  have positive := Nat.pos_of_isPowerOfTwo power
  have mask : Offset.sub step.toNat 1 = .ok (step.toNat - 1) :=
    Offset.sub_eq_ok.2 ⟨positive, rfl⟩
  have whole : step.toNat - 1 + 1 = step.toNat := Nat.sub_add_cancel positive
  have rounded := @Offset.le_roundUp range.start.toNat step.toNat positive
  have low := UInt32.le_iff_toNat_le.1 part.1
  have high := UInt32.le_iff_toNat_le.1 part.2
  have raised : hits flash step.toNat magic range.stop.toNat range.start.toNat =
      hits flash step.toNat magic range.stop.toNat
        (Offset.roundUp range.start.toNat step.toNat) := by
    apply hits_raise rounded
    intro position above below hit
    have least := Offset.roundUp_le positive hit.1 above
    omega
  rw [raised, ← findFrom_eq positive (Offset.dvd_roundUp _ _)]
  · have test := Offset.isPowerOfTwo_iff.2 power
    simp only [find, ensure, nonempty, part, test, and_self, if_true, mask, bind, Except.bind,
      whole]
  · intro position above inside
    exact readable.number (by omega) (by omega)

theorem dvd_of_findFrom {found : Nat} (multiple : alignment ∣ position)
    (result : findFrom flash alignment magic position stop = .ok found) : alignment ∣ found := by
  fun_induction findFrom flash alignment magic position stop with
  | case1 position inside halt failed => cases result
  | case2 position inside left counted short => cases result
  | case3 position inside left counted long error failed => cases result
  | case4 position inside left counted long answer => exact Except.ok.inj result ▸ multiple
  | case5 position inside left counted long word answer other ih =>
      exact ih ((Nat.dvd_add_right multiple).2 (Nat.dvd_refl alignment)) result
  | case6 position outside => cases result

/-- The search answers with multiples of the alignment only. -/
theorem dvd_of_find {range bounds : Span} {step : UInt32} {found : Nat}
    (result : find flash range step magic bounds = .ok found) : step.toNat ∣ found := by
  simp only [find, bind_eq_ok, ensure_eq_ok, Offset.sub_eq_ok] at result
  obtain ⟨-, -, -, -, -, -, _, ⟨positive, rfl⟩, answer⟩ := result
  have multiple := Offset.dvd_roundUp range.start.toNat (step.toNat - 1 + 1)
  rw [Nat.sub_add_cancel positive] at multiple answer
  exact dvd_of_findFrom multiple answer

end Scan

end SignedFirmware
