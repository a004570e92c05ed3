import PlcTags.Proofs.Address.Numeral
import PlcTags.Proofs.Stamp.Calendar
import PlcTags.Stamp.Uuid

/-!
# Stamps as texts

Identifiers and instants are read back from the texts that are written for them
(`Uuid.read?_render`, `Instant.read?_render`).  For an identifier this is the value of its
32 digits; for an instant, every part of the date and the time of day is cut out as it was
put in, with as many digits as it needs, and the calendar leads back to its day.
-/

namespace PlcTags

/-! ## Identifiers -/

namespace Uuid

theorem hexDigit?_digitChar {n : Nat} (h : n < 16) :
    Json.hexDigit? (Nat.digitChar n) = some n := by
  have hall : ∀ n < 16, Json.hexDigit? (Nat.digitChar n) = some n := by decide
  exact hall n h

/-- The letters and marks that stand in a text beside the digits are no digits. -/
theorem digitChar_ne {n : Nat} (h : n < 16) :
    Nat.digitChar n ≠ '-' ∧ Nat.digitChar n ≠ 'u' := by
  have hall : ∀ n < 16, Nat.digitChar n ≠ '-' ∧ Nat.digitChar n ≠ 'u' := by decide
  exact hall n h

/-- The last digits of a number, as many as are asked for. -/
def lastDigits (count n : Nat) : List Nat :=
  (List.range count).map fun place => n / Nat.pow 16 (count - 1 - place) % 16

theorem lastDigits_succ (count n : Nat) :
    lastDigits (count + 1) n = lastDigits count (n / 16) ++ [n % 16] := by
  unfold lastDigits
  rw [List.range_succ, List.map_append, List.map_singleton]
  congr 1
  · refine List.map_congr_left fun place hplace => ?_
    have hplace := List.mem_range.mp hplace
    have hpower : count + 1 - 1 - place = count - 1 - place + 1 := by omega
    rw [hpower, Nat.pow_eq, Nat.pow_eq, Nat.pow_succ, Nat.mul_comm, Nat.div_div_eq_div_mul]
  · have hpower : count + 1 - 1 - count = 0 := by omega
    rw [hpower]
    simp

theorem value_lastDigits (count n : Nat) :
    (lastDigits count n).foldl (fun value digit => value * 16 + digit) 0 =
      n % Nat.pow 16 count := by
  induction count generalizing n with
  | zero => simp [lastDigits, Nat.mod_one]
  | succ count ih =>
      rw [lastDigits_succ, List.foldl_append, ih, List.foldl_cons, List.foldl_nil]
      rw [Nat.pow_eq, Nat.pow_eq, Nat.pow_succ, Nat.mul_comm (16 ^ count), Nat.mod_mul]
      omega

theorem lt_of_mem_lastDigits {count n digit : Nat} (h : digit ∈ lastDigits count n) :
    digit < 16 := by
  obtain ⟨place, -, rfl⟩ := List.mem_map.mp h
  exact Nat.mod_lt _ (by decide)

theorem digits_eq (id : Uuid) : id.digits = (lastDigits 32 id.number).map Nat.digitChar := by
  rw [lastDigits, List.map_map]
  rfl

theorem length_digits (id : Uuid) : id.digits.length = 32 := by
  simp [digits]

theorem ne_of_mem_digits {id : Uuid} {c : Char} (h : c ∈ id.digits) : c ≠ '-' ∧ c ≠ 'u' := by
  rw [digits_eq] at h
  obtain ⟨digit, hdigit, rfl⟩ := List.mem_map.mp h
  exact digitChar_ne (lt_of_mem_lastDigits hdigit)

theorem ofDigits?_digits (id : Uuid) : ofDigits? id.digits = some id := by
  have hvalues : ∀ values : List Nat, (∀ digit ∈ values, digit < 16) →
      (values.map Nat.digitChar).mapM Json.hexDigit? = some values := by
    intro values hvalues
    induction values with
    | nil => rfl
    | cons digit rest ih =>
        obtain ⟨hdigit, hrest⟩ := List.forall_mem_cons.mp hvalues
        rw [List.map_cons, List.mapM_cons, hexDigit?_digitChar hdigit, ih hrest]
        rfl
  rw [ofDigits?, digits_eq, hvalues _ fun _ => lt_of_mem_lastDigits, Option.bind_eq_bind,
    Option.bind_some, value_lastDigits]
  -- All numbers have at most 32 digits.
  have hall : id.number.val % Nat.pow 16 32 = id.number.val := Nat.mod_eq_of_lt id.number.isLt
  rw [hall]
  exact congrArg some (congrArg Uuid.mk (Fin.ofNat_val_eq_self id.number))

/-- Taking the hyphens out leaves the digits. -/
theorem filter_grouped {digits : List Char} (h : '-' ∉ digits) :
    (grouped digits).filter (· != '-') = digits := by
  have hpart : ∀ part : List Char, part ⊆ digits → part.filter (· != '-') = part := by
    intro part hsubset
    refine List.filter_eq_self.mpr fun c hc => bne_iff_ne.mpr ?_
    rintro rfl
    exact h (hsubset hc)
  have hdrop : ∀ n, digits.drop n ⊆ digits := fun n => List.drop_subset n digits
  have htake : ∀ n, (digits.drop n).take 4 ⊆ digits :=
    fun n c hc => hdrop n (List.take_subset 4 _ hc)
  have hjoin : ∀ n, (digits.drop n).take 4 ++ digits.drop (n + 4) = digits.drop n := by
    intro n
    rw [← List.drop_drop]
    exact List.take_append_drop 4 _
  have hmark : ('-' != '-') = false := rfl
  simp only [grouped, List.filter_append, List.filter_cons, hmark, hpart _ (htake _),
    hpart _ (hdrop _), hpart _ (List.take_subset 8 digits), List.append_assoc]
  simp [hjoin]

theorem length_grouped {digits : List Char} (h : digits.length = 32) :
    (grouped digits).length = 36 := by
  simp [grouped, h]

/-- **An identifier is read back** from its text. -/
theorem read?_render (id : Uuid) : read? id.render = some id := by
  have hlength := length_grouped (length_digits id)
  have hhyphen : '-' ∉ id.digits := fun hmem => (ne_of_mem_digits hmem).1 rfl
  have hungrouped : ungrouped? (grouped id.digits) = some id.digits := by
    simp [ungrouped?, filter_grouped hhyphen, length_digits]
  -- The text does not begin with a scheme, because it begins with a digit.
  have hscheme : "urn:uuid:".toList.isPrefixOf? (grouped id.digits) = none := by
    have hletter : "urn:uuid:".toList = 'u' :: "rn:uuid:".toList := by decide
    obtain ⟨c, rest, hdigits⟩ : ∃ c rest, id.digits = c :: rest :=
      List.exists_cons_of_length_eq_add_one (length_digits id)
    have hne : ('u' == c) = false :=
      beq_false_of_ne fun heq => (ne_of_mem_digits (hdigits ▸ List.mem_cons_self)).2 heq.symm
    obtain ⟨tail, htail⟩ : ∃ tail, grouped (c :: rest) = c :: tail := ⟨_, rfl⟩
    have hstep : ('u' :: "rn:uuid:".toList).isPrefixOf? (c :: tail) =
        if 'u' == c then "rn:uuid:".toList.isPrefixOf? tail else none := rfl
    rw [hletter, hdigits, htail, hstep, hne]
    rfl
  have hlist : id.render.toList = grouped id.digits := String.toList_ofList
  unfold read?
  rw [hlist]
  generalize "urn:uuid:".toList = scheme at hscheme ⊢
  simp [hlength, hscheme, hungrouped, ofDigits?_digits]

end Uuid

/-! ## Instants -/

namespace Instant

/-- A number in at least so many digits. -/
def paddedDigits (width n : Nat) : List Char :=
  List.replicate (width - (Nat.toDigits 10 n).length) '0' ++ Nat.toDigits 10 n

theorem toList_padded (width n : Nat) : (padded width n).toList = paddedDigits width n :=
  String.toList_ofList

theorem isDigit_of_mem_paddedDigits {width n : Nat} {c : Char} (h : c ∈ paddedDigits width n) :
    c.isDigit = true := by
  rcases List.mem_append.mp h with hzero | hdigit
  · rw [List.eq_of_mem_replicate hzero]
    rfl
  · exact Nat.isDigit_of_mem_toDigits (by decide) (by decide) hdigit

theorem paddedDigits_ne_nil (width n : Nat) : paddedDigits width n ≠ [] :=
  List.append_ne_nil_of_right_ne_nil _ Nat.toDigits_ne_nil

theorem natOf_paddedDigits (width n : Nat) : Json.natOf (paddedDigits width n) = n := by
  have hzeros : ∀ count, Nat.ofDigitChars 10 (List.replicate count '0') 0 = 0 := by
    intro count
    induction count with
    | zero => rfl
    | succ count ih => rw [List.replicate_succ, Nat.ofDigitChars_cons]; exact ih
  rw [Json.natOf, paddedDigits, Nat.ofDigitChars_append, hzeros]
  exact Nat.ofDigitChars_ten_toDigits

/-- A number that is small enough has exactly as many digits as were asked for. -/
theorem length_paddedDigits {width n : Nat} (hwidth : 0 < width) (h : n < Nat.pow 10 width) :
    (paddedDigits width n).length = width := by
  have hlength : (Nat.toDigits 10 n).length ≤ width :=
    (Nat.length_toDigits_le_iff (by decide) hwidth).mpr h
  rw [paddedDigits, List.length_append, List.length_replicate]
  omega

/-! ### Parts of a text -/

theorem trimStart_of_isDigit {digits rest : List Char}
    (hdigits : ∀ c ∈ digits, c.isDigit = true) (hne : digits ≠ []) :
    Text.trimStart (digits ++ rest) = digits ++ rest := by
  obtain ⟨c, tail, rfl⟩ := List.exists_cons_of_ne_nil hne
  have hbounds := Address.toNat_of_isDigit (hdigits c List.mem_cons_self)
  have hblank : Text.isBlank c = false := Address.Canonical.isBlank_eq ⟨by omega, by omega⟩
  exact Text.trimStart_of_not_blank _ hblank

/-- A number is cut out where its digits end, or where it has all digits that it may
have. -/
theorem number?_digits {width : Nat} {digits rest : List Char}
    (hdigits : ∀ c ∈ digits, c.isDigit = true) (hne : digits ≠ [])
    (htake : ((digits ++ rest).takeWhile Char.isDigit).take width = digits) :
    number? width (digits ++ rest) = some (Json.natOf digits, rest) := by
  unfold number?
  rw [trimStart_of_isDigit hdigits hne]
  dsimp only
  rw [htake, List.drop_left]
  exact if_neg (by simpa using hne)

theorem number?_padded {width n : Nat} (hwidth : 0 < width) (h : n < Nat.pow 10 width)
    (rest : List Char) :
    number? width (paddedDigits width n ++ rest) = some (n, rest) := by
  have hdigits : ∀ c ∈ paddedDigits width n, c.isDigit = true :=
    fun _ => isDigit_of_mem_paddedDigits
  have htake : ((paddedDigits width n ++ rest).takeWhile Char.isDigit).take width =
      paddedDigits width n := by
    rw [List.takeWhile_append_of_pos hdigits]
    exact List.take_left' (length_paddedDigits hwidth h)
  rw [number?_digits hdigits (paddedDigits_ne_nil width n) htake, natOf_paddedDigits]

theorem skipMark?_cons {mark : Char} (rest : List Char) (h : Text.isBlank mark = false) :
    skipMark? mark (mark :: rest) = some rest := by
  rw [skipMark?, Text.trimStart_of_not_blank rest h]
  exact if_pos (beq_self_eq_true mark)

/-- The number after a sign has all its digits read. -/
theorem number?_signed {n : Nat} {mark : Char} (rest : List Char) (hmark : mark.isDigit = false) :
    number? (paddedDigits 4 n ++ mark :: rest).length (paddedDigits 4 n ++ mark :: rest) =
      some (n, mark :: rest) := by
  have hdigits : ∀ c ∈ paddedDigits 4 n, c.isDigit = true := fun _ => isDigit_of_mem_paddedDigits
  have htake : ((paddedDigits 4 n ++ mark :: rest).takeWhile Char.isDigit).take
      (paddedDigits 4 n ++ mark :: rest).length = paddedDigits 4 n := by
    rw [List.takeWhile_append_of_pos hdigits, List.takeWhile_cons_of_neg (by simp [hmark]),
      List.append_nil]
    exact List.take_of_length_le (by simp)
  rw [number?_digits hdigits (paddedDigits_ne_nil 4 n) htake, natOf_paddedDigits]

theorem any_head?_paddedDigits (width n : Nat) (rest : List Char) :
    (paddedDigits width n ++ rest).head?.any Char.isDigit = true := by
  obtain ⟨c, tail, hdigits⟩ := List.exists_cons_of_ne_nil (paddedDigits_ne_nil width n)
  rw [hdigits]
  exact isDigit_of_mem_paddedDigits (hdigits ▸ List.mem_cons_self)

/-- A year that is not signed does not begin with a sign. -/
theorem year?_digits {digits rest : List Char} (hdigits : ∀ c ∈ digits, c.isDigit = true)
    (hne : digits ≠ []) : year? (digits ++ rest) =
      (number? 4 (digits ++ rest)).map fun (n, rest) => ((n : Int), rest) := by
  unfold year?
  rw [trimStart_of_isDigit hdigits hne]
  obtain ⟨c, tail, rfl⟩ := List.exists_cons_of_ne_nil hne
  have hdigit := hdigits c List.mem_cons_self
  split
  · rename_i heq
    rw [(List.cons.inj heq).1] at hdigit
    cases hdigit
  · rename_i heq
    rw [(List.cons.inj heq).1] at hdigit
    cases hdigit
  · rfl

/-- **A year is read back**, with whatever sign and however many digits. -/
theorem year?_renderYear (year : Int) (rest : List Char) :
    year? ((renderYear year).toList ++ '-' :: rest) = some (year, '-' :: rest) := by
  unfold renderYear
  split
  · rename_i hshort
    have hsmall : year.toNat < Nat.pow 10 4 := by
      show year.toNat < 10000
      omega
    rw [toList_padded, year?_digits (fun _ => isDigit_of_mem_paddedDigits)
      (paddedDigits_ne_nil _ _), number?_padded (by decide) hsmall]
    simp only [Option.map_some, Int.toNat_of_nonneg hshort.1]
  · -- A year of more than four digits, or before the year 0, has a sign in front.
    have hminus : Text.isBlank '-' = false := by decide
    have hplus : Text.isBlank '+' = false := by decide
    have hhead := any_head?_paddedDigits 4 year.natAbs ('-' :: rest)
    have hnumber : number? (paddedDigits 4 year.natAbs ++ '-' :: rest).length
        (paddedDigits 4 year.natAbs ++ '-' :: rest) = some (year.natAbs, '-' :: rest) :=
      number?_signed rest (by decide)
    by_cases hnegative : year < 0
    · rw [if_pos hnegative, String.toList_append, toList_padded, List.append_assoc]
      show year? ('-' :: (paddedDigits 4 year.natAbs ++ '-' :: rest)) = _
      simp only [year?, Text.trimStart_of_not_blank _ hminus, hhead, hnumber, if_true,
        Option.map_some]
      have hvalue : -(year.natAbs : Int) = year := by omega
      rw [hvalue]
    · rw [if_neg hnegative, String.toList_append, toList_padded, List.append_assoc]
      show year? ('+' :: (paddedDigits 4 year.natAbs ++ '-' :: rest)) = _
      simp only [year?, Text.trimStart_of_not_blank _ hplus, hhead, hnumber, if_true,
        Option.map_some]
      have hvalue : (year.natAbs : Int) = year := by omega
      rw [hvalue]

theorem fraction?_padded {width n : Nat} {mark : Char} (hwidth : 0 < width) (hmost : width ≤ 9)
    (h : n < Nat.pow 10 width) (hmark : mark.isDigit = false) (rest : List Char) :
    fraction? ('.' :: (paddedDigits width n ++ mark :: rest)) =
      some (n * Nat.pow 10 (9 - width), mark :: rest) := by
  have hdigits : ∀ c ∈ paddedDigits width n, c.isDigit = true :=
    fun _ => isDigit_of_mem_paddedDigits
  have hlength := length_paddedDigits hwidth h
  have htake : ((paddedDigits width n ++ mark :: rest).takeWhile Char.isDigit).take 9 =
      paddedDigits width n := by
    rw [List.takeWhile_append_of_pos hdigits, List.takeWhile_cons_of_neg (by simp [hmark]),
      List.append_nil]
    exact List.take_of_length_le (by omega)
  have hdrop : (paddedDigits width n ++ mark :: rest).dropWhile Char.isDigit = mark :: rest := by
    rw [List.dropWhile_append_of_pos hdigits, List.dropWhile_cons_of_neg (by simp [hmark])]
  rw [fraction?, htake, hdrop, natOf_paddedDigits, hlength]
  exact if_neg (by simpa using paddedDigits_ne_nil width n)

/-- **The fraction of a second is read back.** -/
theorem fraction?_renderFraction {nanosecond : Nat} (h : nanosecond < 1000000000) {mark : Char}
    (hmark : mark.isDigit = false) (hpoint : mark ≠ '.') (rest : List Char) :
    fraction? ((renderFraction nanosecond).toList ++ mark :: rest) =
      some (nanosecond, mark :: rest) := by
  -- The three widths that are written differ only in the number of digits.
  have hread : ∀ width, 0 < width → width ≤ 9 →
      nanosecond % Nat.pow 10 (9 - width) = 0 →
      nanosecond / Nat.pow 10 (9 - width) < Nat.pow 10 width →
      fraction? (("." ++ padded width (nanosecond / Nat.pow 10 (9 - width))).toList ++
        mark :: rest) = some (nanosecond, mark :: rest) := by
    intro width hwidth hmost hwhole hsmall
    rw [String.toList_append, toList_padded, List.append_assoc]
    show fraction? ('.' :: (paddedDigits _ _ ++ mark :: rest)) = _
    rw [fraction?_padded hwidth hmost hsmall hmark,
      Nat.div_mul_cancel (Nat.dvd_of_mod_eq_zero hwhole)]
  unfold renderFraction
  split
  · rename_i hzero
    subst hzero
    show fraction? (mark :: rest) = some (0, mark :: rest)
    unfold fraction?
    split
    · rename_i heq
      exact absurd (List.cons.inj heq).1 hpoint
    · rfl
  · split
    · rename_i hmilli
      exact hread 3 (by decide) (by decide) hmilli (by show nanosecond / 1000000 < 1000; omega)
    · split
      · rename_i hmicro
        exact hread 6 (by decide) (by decide) hmicro (by show nanosecond / 1000 < 1000000; omega)
      · have hnano := hread 9 (by decide) (by decide) (Nat.mod_one _)
          (by show nanosecond / 1 < 1000000000; omega)
        have hsame : nanosecond / Nat.pow 10 (9 - 9) = nanosecond := Nat.div_one _
        rwa [hsame] at hnano

/-! ### The whole text -/

/-- A month has at most 31 days. -/
theorem daysInMonth_le (year : Int) (month : Nat) : daysInMonth year month ≤ 31 := by
  unfold daysInMonth
  split
  · split <;> decide
  · split <;> decide

/-- The characters of the text of an instant with this date and this time of day. -/
theorem toList_render {instant : Instant} {year : Int} {month day rest : Nat}
    (hdate : dateOfDay (instant.second / 86400) = (year, month, day))
    (hrest : rest = (instant.second % 86400).toNat) :
    instant.render.toList = (renderYear year).toList ++ '-' :: (paddedDigits 2 month ++
      '-' :: (paddedDigits 2 day ++ 'T' :: (paddedDigits 2 (rest / 3600) ++
      ':' :: (paddedDigits 2 (rest / 60 % 60) ++
      ':' :: (paddedDigits 2 (rest % 60 + instant.nanosecond / 1000000000) ++
      ((renderFraction (instant.nanosecond % 1000000000)).toList ++ ['Z'])))))) := by
  subst hrest
  unfold render
  rw [hdate]
  simp only [String.toList_append, toList_padded, List.append_assoc]
  rfl

/-- The parts of an instant make it up again.  A second beyond the last one of a minute is
written as one more. -/
theorem ofParts?_of_instant {instant : Instant} {year : Int} {month day rest : Nat}
    (hdate : dateOfDay (instant.second / 86400) = (year, month, day))
    (hrest : rest = (instant.second % 86400).toNat) :
    ofParts? year month day (rest / 3600) (rest / 60 % 60)
      (rest % 60 + instant.nanosecond / 1000000000) (instant.nanosecond % 1000000000) 0 =
        some instant := by
  obtain ⟨⟨hmonth, hmonth', hday, hday'⟩, hback⟩ := isDate_dateOfDay hdate
  obtain ⟨second, nanosecond, hlimit⟩ := instant
  dsimp only at hrest hback ⊢
  have hbound := hlimit
  unfold nanosecondLimit at hbound
  have hminute : second % 60 = 59 → rest % 60 = 59 := by omega
  have hvalid : 1 ≤ month ∧ month ≤ 12 ∧ 1 ≤ day ∧ day ≤ daysInMonth year month ∧
      rest / 3600 ≤ 23 ∧ rest / 60 % 60 ≤ 59 ∧ rest % 60 + nanosecond / 1000000000 ≤ 60 := by
    refine ⟨hmonth, hmonth', hday, hday', by omega, by omega, ?_⟩
    split at hbound <;> omega
  unfold ofParts?
  rw [if_pos hvalid, hback]
  -- The second 60 is read as the second 59 with a second more of nanoseconds.
  by_cases hleap : rest % 60 + nanosecond / 1000000000 = 60
  · have htotal : second / 86400 * 86400 +
        ((rest / 3600 * 3600 + rest / 60 % 60 * 60 + 59 : Nat) : Int) - 0 = second := by
      split at hbound <;> omega
    have hwhole : nanosecond % 1000000000 + 1000000000 = nanosecond := by
      split at hbound <;> omega
    simp only [hleap, beq_self_eq_true, if_true, htotal, hwhole]
    exact dif_pos hlimit
  · have htotal : second / 86400 * 86400 + ((rest / 3600 * 3600 + rest / 60 % 60 * 60 +
        (rest % 60 + nanosecond / 1000000000) : Nat) : Int) - 0 = second := by
      split at hbound <;> omega
    have hwhole : nanosecond % 1000000000 = nanosecond := by
      split at hbound <;> omega
    have hbeq : (rest % 60 + nanosecond / 1000000000 == 60) = false := beq_false_of_ne hleap
    simp only [hbeq, Bool.false_eq_true, if_false, htotal, hwhole]
    exact dif_pos hlimit

/-- **An instant is read back** from its text. -/
theorem read?_render (instant : Instant) : read? instant.render = some instant := by
  obtain ⟨year, month, day, hdate⟩ :
    ∃ year month day, dateOfDay (instant.second / 86400) = (year, month, day) := ⟨_, _, _, rfl⟩
  obtain ⟨rest, hrest⟩ : ∃ rest, rest = (instant.second % 86400).toNat := ⟨_, rfl⟩
  obtain ⟨⟨-, hmonth, -, hday⟩, -⟩ := isDate_dateOfDay hdate
  have hday := Nat.le_trans hday (daysInMonth_le year month)
  have hlimit := instant.nanosecond_lt
  unfold nanosecondLimit at hlimit
  have hsecond : rest % 60 + instant.nanosecond / 1000000000 < 100 := by
    split at hlimit <;> omega
  have hnumber : ∀ n, n < 100 → ∀ text,
      number? 2 (paddedDigits 2 n ++ text) = some (n, text) :=
    fun n hn => number?_padded (by decide) hn
  have hsome : ∀ {α : Type} (value : α) (read : α → Option Instant),
      (some value >>= read) = read value := fun _ _ => rfl
  have hmarked : ∀ mark, Text.isBlank mark = false → ∀ n, n < 100 → ∀ text,
      ∀ read : Nat × List Char → Option Instant,
      (skipMark? mark (mark :: (paddedDigits 2 n ++ text)) >>= fun text =>
        number? 2 text >>= read) = read (n, text) := by
    intro mark hmark n hn text read
    rw [skipMark?_cons _ hmark, hsome, hnumber n hn, hsome]
  have hhyphen : Text.isBlank '-' = false := by decide
  have hcolon : Text.isBlank ':' = false := by decide
  have hfraction := fraction?_renderFraction
    (Nat.mod_lt instant.nanosecond (by decide : 1000000000 > 0))
    (show 'Z'.isDigit = false by decide) (show 'Z' ≠ '.' by decide) []
  have hoffset : offset? ['Z'] = some (0, []) := by
    rw [offset?, Text.trimStart_of_not_blank [] (by decide : Text.isBlank 'Z' = false)]
    rfl
  -- Each part is read and leaves the next one in front.
  rw [read?, toList_render hdate hrest, year?_renderYear, hsome]
  dsimp only
  rw [hmarked '-' hhyphen month (by omega)]
  dsimp only
  rw [hmarked '-' hhyphen day (by omega)]
  dsimp only
  rw [if_pos (by decide), hsome, hnumber (rest / 3600) (by omega), hsome]
  dsimp only
  rw [hmarked ':' hcolon (rest / 60 % 60) (by omega)]
  dsimp only
  rw [hmarked ':' hcolon _ hsecond, hfraction, hsome, hoffset, hsome]
  exact ofParts?_of_instant hdate hrest

end Instant

end PlcTags
