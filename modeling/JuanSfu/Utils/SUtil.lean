import JuanSfu.Base
import JuanSfu.Lib.Cuts
import Mathlib.Data.List.TakeWhile

/-!
# `utils/sutil.cpp` and the parts of `std::string` it rests on

`SUtil::split` walks over the text with absolute offsets and repeated leftmost
search. The search and the loop are generic in the alphabet. What `split`
returns are the fields of the text, less the empty ones.
-/

namespace JuanSfu

variable {α : Type} [DecidableEq α]

/-- Leftmost position at which `pat` occurs in the text. -/
def findIdx : List α → List α → Option ℕ
  | [], pat => if pat = [] then some 0 else none
  | c :: text, pat =>
      if pat.isPrefixOf (c :: text) then some 0
      else (findIdx text pat).map (· + 1)

/-- `text.find(pat, off)`; `none` is `npos`. -/
def find (text pat : List α) (off : ℕ) : Option ℕ :=
  if off ≤ text.length then (findIdx (text.drop off) pat).map (· + off)
  else none

/-- `text.find(pat) != npos`. -/
def contains (text pat : List α) : Bool := (find text pat 0).isSome

/-- `text.substr(pos, n)` for `pos ≤ text.size()`. -/
def substr (text : List α) (pos n : ℕ) : List α := (text.drop pos).take n

/-- The loop of `SUtil::split` from `offset` on, `none` when the fuel ends. -/
def splitLoop (text splitter : List α) :
    ℕ → ℕ → List (List α) → Option (List (List α))
  | 0, _, _ => none
  | fuel + 1, offset, vecs =>
      match find text splitter offset with
      | some pos =>
          splitLoop text splitter fuel (pos + splitter.length)
            (if pos - offset > 0
              then vecs ++ [substr text offset (pos - offset)] else vecs)
      | none =>
          if offset < text.length then some (vecs ++ [text.drop offset])
          else some vecs

/-- `SUtil::split`: each turn of the loop passes a splitter, so a text of
length `n` allows at most `n + 1` of them. An empty splitter loops for ever. -/
def split (text splitter : List α) (vecs : List (List α)) :
    Result (List (List α)) :=
  match splitLoop text splitter (text.length + 1) 0 vecs with
  | some vecs => .ok vecs
  | none => .error .diverged

/-! ## Searching -/

theorem findIdx_eq_none {text pat : List α} : findIdx text pat = none ↔ ¬ pat <:+: text := by
  induction text with
  | nil => by_cases h : pat = [] <;> simp [findIdx, h]
  | cons c text ih =>
      rw [List.infix_cons_iff, not_or, ← ih, ← List.isPrefixOf_iff_prefix, findIdx]
      split
      · next h => simp [h]
      · next h => simp [h]

theorem findIdx_first {pat field : List α} (h : ¬ pat <:+: field ++ pat.dropLast)
    (rest : List α) : findIdx (field ++ pat ++ rest) pat = some field.length := by
  have hne : pat ≠ [] := Cuts.ne_nil h
  induction field with
  | nil =>
      obtain ⟨c, pat, rfl⟩ := List.exists_cons_of_ne_nil hne
      simp [findIdx]
  | cons x field ih =>
      have hp : ¬ pat <+: x :: field ++ pat ++ rest := fun hp =>
        h (Cuts.occurs_sooner (List.cons_ne_nil _ _) hp)
      rw [List.cons_append, List.infix_cons_iff, not_or] at h
      rw [← List.isPrefixOf_iff_prefix] at hp
      have hstep : findIdx (x :: (field ++ pat ++ rest)) pat =
          (findIdx (field ++ pat ++ rest) pat).map (· + 1) := if_neg hp
      rw [List.cons_append, List.cons_append, hstep, ih h.2]
      rfl

theorem contains_iff {text pat : List α} : contains text pat = true ↔ pat <:+: text := by
  unfold contains find
  rw [if_pos (Nat.zero_le _), List.drop_zero, Option.isSome_map, Option.isSome_iff_ne_none,
    ne_eq, findIdx_eq_none, not_not]

/-- What stands before the first occurrence is skipped. -/
theorem find_first {pat field : List α} (h : ¬ pat <:+: field ++ pat.dropLast)
    (rest : List α) : find (field ++ pat ++ rest) pat 0 = some field.length := by
  unfold find
  rw [if_pos (Nat.zero_le _), List.drop_zero, findIdx_first h]
  rfl

/-! ## Splitting -/

/-- The loop, from an offset on, collects the fields of what is left. -/
theorem splitLoop_cuts {splitter rest : List α} {fields : List (List α)}
    (h : Cuts splitter rest fields) :
    ∀ {text : List α} {fuel offset : ℕ} (vecs : List (List α)), text.drop offset = rest →
      offset ≤ text.length → rest.length < fuel →
      splitLoop text splitter fuel offset vecs = some (vecs ++ fields.filter (· ≠ [])) := by
  induction h with
  | @last rest h =>
      intro text fuel offset vecs hrest hoff hfuel
      obtain ⟨fuel, rfl⟩ := Nat.exists_eq_add_one.mpr (Nat.zero_lt_of_lt hfuel)
      have hfind : find text splitter offset = none := by
        unfold find
        rw [if_pos hoff, hrest, findIdx_eq_none.mpr h]
        rfl
      unfold splitLoop
      rw [hfind]
      dsimp only
      have hlen : rest.length = text.length - offset := by rw [← hrest, List.length_drop]
      rw [hrest]
      cases rest with
      | nil =>
          rw [List.length_nil] at hlen
          simp [show ¬ offset < text.length by omega]
      | cons c rest =>
          rw [List.length_cons] at hlen
          simp [show offset < text.length by omega]
  | @next field rest fields hf hr ih =>
      intro text fuel offset vecs hrest hoff hfuel
      obtain ⟨fuel, rfl⟩ := Nat.exists_eq_add_one.mpr (Nat.zero_lt_of_lt hfuel)
      have hpos := List.length_pos_of_ne_nil (Cuts.ne_nil hf)
      have hfind : find text splitter offset = some (field.length + offset) := by
        unfold find
        rw [if_pos hoff, hrest, findIdx_first hf]
        rfl
      have hlen : (field ++ splitter ++ rest).length = text.length - offset := by
        rw [← hrest, List.length_drop]
      rw [List.length_append, List.length_append] at hlen hfuel
      have hnext : text.drop (field.length + offset + splitter.length) = rest := by
        rw [show field.length + offset + splitter.length =
          offset + (field ++ splitter).length by rw [List.length_append]; omega,
          ← List.drop_drop, hrest, List.drop_left]
      have hfield : substr text offset field.length = field := by
        rw [substr, hrest, List.append_assoc, List.take_left]
      unfold splitLoop
      rw [hfind]
      dsimp only
      rw [Nat.add_sub_cancel, hfield, ih _ hnext (by omega) (by omega)]
      cases field with
      | nil => simp
      | cons c field => simp

/-- `split` appends the fields that are not empty to what the vector holds. -/
theorem split_append {text splitter : List α} {fields : List (List α)}
    (h : Cuts splitter text fields) (vecs : List (List α)) :
    split text splitter vecs = .ok (vecs ++ fields.filter (· ≠ [])) := by
  unfold split
  rw [splitLoop_cuts h vecs List.drop_zero (Nat.zero_le _) (Nat.lt_succ_self _)]

/-- **`split` returns the fields that are not empty.** -/
theorem split_cuts {text splitter : List α} {fields : List (List α)}
    (h : Cuts splitter text fields) :
    split text splitter [] = .ok (fields.filter (· ≠ [])) := split_append h []

/-- `split` returns, if it is given something to split at. -/
theorem exists_split {splitter : List α} (hne : splitter ≠ []) (text : List α) :
    ∃ vecs, split text splitter [] = .ok vecs := by
  obtain ⟨fields, h⟩ := Cuts.exists_fields hne text
  exact ⟨_, split_cuts h⟩

/-- **`split` undoes joining**: it ends on every text and appends pieces that are
not empty and have no splitter in them; where the splitter has no border, what
was joined by it comes back, less the empty texts. -/
theorem split_undoes_join {splitter : List α} (hne : splitter ≠ []) :
    (∀ (text : List α) (vecs : List (List α)), ∃ pieces,
      split text splitter vecs = .ok (vecs ++ pieces) ∧
        ∀ piece ∈ pieces, piece ≠ [] ∧ ¬ splitter <:+: piece) ∧
    (Unbordered splitter → ∀ texts vecs : List (List α), (∀ t ∈ texts, ¬ splitter <:+: t) →
      split (splitter.intercalate texts) splitter vecs =
        .ok (vecs ++ texts.filter (· ≠ []))) := by
  constructor
  · intro text vecs
    obtain ⟨fields, hcuts⟩ := Cuts.exists_fields hne text
    refine ⟨_, split_append hcuts vecs, fun piece hpiece => ?_⟩
    obtain ⟨hfield, hpiece⟩ := List.mem_filter.mp hpiece
    exact ⟨of_decide_eq_true hpiece, hcuts.not_infix_of_mem hfield⟩
  · intro hs texts vecs htexts
    rcases texts with - | ⟨text, texts⟩
    · -- nothing joined is the empty text, whose one field does not count
      have hnil : ¬ splitter <:+: [] := fun hi => hne (List.infix_nil.mp hi)
      exact split_append (.last hnil) vecs
    · exact split_append (Cuts.of_intercalate hs (List.cons_ne_nil _ _) htexts) vecs

/-- Two lines with an empty one between them, behind what was there. -/
theorem split_undoes_join_lines :
    split ((str "\\r\\n").intercalate [str "v=0", [], str "s=-"]) (str "\\r\\n") [str "t=0"] =
      .ok [str "t=0", str "v=0", str "s=-"] :=
  (split_undoes_join (by decide)).2 (by decide) [str "v=0", [], str "s=-"] [str "t=0"] (by decide)

/-- Fields that are not empty, with one character between them. -/
theorem split_fields {c : α} {head : List α} {tail : List (List α)} (hhead : c ∉ head)
    (htail : ∀ f ∈ tail, c ∉ f) (hne : ∀ f ∈ head :: tail, f ≠ []) :
    split (head ++ (tail.map (c :: ·)).flatten) [c] [] = .ok (head :: tail) := by
  rw [split_cuts (Cuts.of_fields hhead htail), List.filter_eq_self.mpr]
  intro f hf
  exact decide_eq_true (hne f hf)

theorem split_two {c : α} {a b : List α} (ha : c ∉ a) (hb : c ∉ b) (hane : a ≠ [])
    (hbne : b ≠ []) : split (a ++ c :: b) [c] [] = .ok [a, b] := by
  have h := split_fields ha (List.forall_mem_singleton.mpr hb)
    (List.forall_mem_cons.mpr ⟨hane, List.forall_mem_singleton.mpr hbne⟩)
  rwa [List.map_singleton, List.flatten_singleton] at h

/-- What stands between the given characters, where there is something. -/
def fieldsAt (c : α) (text : List α) : List (List α) := (text.splitOn c).filter (· ≠ [])

theorem split_eq_fieldsAt (c : α) (text : List α) : split text [c] [] = .ok (fieldsAt c text) :=
  split_cuts (Cuts.splitOn c text)

theorem fieldsAt_append_cons {c : α} {head : List α} (hc : c ∉ head) (hne : head ≠ [])
    (rest : List α) : fieldsAt c (head ++ c :: rest) = head :: fieldsAt c rest := by
  have hfirst : (head ++ c :: rest).splitOn c = head :: rest.splitOn c := by
    refine List.splitOnP_append_cons_of_forall_mem (p := (· == c)) ?_ c (beq_self_eq_true c) rest
    intro x hx
    exact beq_eq_false_iff_ne.mpr fun h => hc (h ▸ hx)
  unfold fieldsAt
  rw [hfirst, List.filter_cons_of_pos (by simpa using hne)]

theorem fieldsAt_of_notMem {c : α} {text : List α} (hc : c ∉ text) :
    (fieldsAt c text).length ≤ 1 := by
  have hone : text.splitOn c = [text] :=
    List.splitOnP_eq_singleton fun x hx => beq_eq_false_iff_ne.mpr fun h => hc (h ▸ hx)
  rw [fieldsAt, hone]
  exact List.length_filter_le _ _

/-! ## Numbers in strings -/

def isDigit (c : UInt8) : Bool := 48 ≤ c && c ≤ 57

/-- `isspace` in the C locale. -/
def isSpace (c : UInt8) : Bool := c == 32 || (9 ≤ c && c ≤ 13)

def digitsValue (ds : Str) : ℕ := ds.foldl (fun n c => 10 * n + (c.toNat - 48)) 0

/-- The number `strtoll` reads in base 10: leading space, an optional sign, the
digits that follow; `none` if there is no digit. -/
def strtol (s : Str) : Option ℤ :=
  let body := s.dropWhile isSpace
  let neg := body.head? == some 45
  let body := if neg || body.head? == some 43 then body.tail else body
  let ds := body.takeWhile isDigit
  if ds = [] then none
  else some (if neg then -(digitsValue ds : ℤ) else digitsValue ds)

/-- `s.c_str()` read back as a string: it ends at the first zero byte. -/
def cStr (s : Str) : Str := s.takeWhile (· != 0)

/-- `std::stoll`. -/
def stoll (s : Str) : Result ℤ :=
  match strtol s with
  | none => .error .stollThrew
  | some n =>
      if -9223372036854775808 ≤ n ∧ n ≤ 9223372036854775807 then .ok n
      else .error .stollThrew

/-- `std::atoll`, with the clamping of `strtoll`. -/
def atoll (s : Str) : ℤ :=
  max (-9223372036854775808) (min 9223372036854775807 ((strtol (cStr s)).getD 0))

/-- `std::atoi`. -/
def atoi (s : Str) : ℤ := (Int32.ofInt (atoll s)).toInt

/-- An unsigned number on an output stream. -/
def natToStr (n : ℕ) : Str := (Nat.toDigits 10 n).map fun c => UInt8.ofNat c.toNat

/-- A signed number on an output stream. -/
def intToStr (n : ℤ) : Str := if n < 0 then 45 :: natToStr n.natAbs else natToStr n.natAbs

/-! ### Printed and read back -/

theorem isDigit_iff {c : UInt8} : isDigit c = true ↔ 48 ≤ c.toNat ∧ c.toNat ≤ 57 := by
  simp only [isDigit, Bool.and_eq_true, decide_eq_true_eq, UInt8.le_iff_toNat_le]
  exact Iff.rfl

theorem not_isSpace_of_isDigit {c : UInt8} (h : isDigit c = true) : isSpace c = false := by
  rw [isDigit_iff] at h
  simp only [isSpace, Bool.or_eq_false_iff, Bool.and_eq_false_iff, beq_eq_false_iff_ne, ne_eq,
    decide_eq_false_iff_not, UInt8.le_iff_toNat_le, ← UInt8.toNat_inj, UInt8.reduceToNat]
  omega

theorem isDigit_natToStr {n : ℕ} {c : UInt8} (h : c ∈ natToStr n) : isDigit c = true := by
  obtain ⟨d, hd, rfl⟩ := List.mem_map.mp h
  have hdigit := Nat.isDigit_of_mem_toDigits (by decide) (by decide) hd
  simp only [Char.isDigit_iff_toNat, Char.reduceToNat] at hdigit
  rw [isDigit_iff, UInt8.toNat_ofNat', Nat.mod_eq_of_lt (by omega)]
  exact hdigit

theorem natToStr_ne_nil (n : ℕ) : natToStr n ≠ [] := by
  simp [natToStr]

/-- Printed digits are read as the number they were printed from. -/
theorem digitsValue_natToStr (n : ℕ) : digitsValue (natToStr n) = n := by
  have hfold : ∀ (ds : List Char) (acc : ℕ), (∀ d ∈ ds, d.isDigit) →
      (ds.map fun c => UInt8.ofNat c.toNat).foldl (fun n c => 10 * n + (c.toNat - 48)) acc =
        Nat.ofDigitChars 10 ds acc := by
    intro ds acc hds
    induction ds generalizing acc with
    | nil => rfl
    | cons d ds ih =>
        simp only [List.forall_mem_cons, Char.isDigit_iff_toNat, Char.reduceToNat] at hds ih
        have hd : (UInt8.ofNat d.toNat).toNat = d.toNat := by
          rw [UInt8.toNat_ofNat', Nat.mod_eq_of_lt (by omega)]
        rw [List.map_cons, List.foldl_cons, hd, ih _ hds.2, Nat.ofDigitChars_cons]
        rfl
  have h := hfold (Nat.toDigits 10 n) 0 fun d hd =>
    Nat.isDigit_of_mem_toDigits (by decide) (by decide) hd
  rw [Nat.ofDigitChars_ten_toDigits] at h
  exact h

theorem strtol_natToStr (n : ℕ) : strtol (natToStr n) = some (n : ℤ) := by
  have hval := digitsValue_natToStr n
  have hdigits : ∀ d ∈ natToStr n, isDigit d = true := fun d hd => isDigit_natToStr hd
  obtain ⟨c, ds, hds⟩ := List.exists_cons_of_ne_nil (natToStr_ne_nil n)
  rw [hds] at hval hdigits ⊢
  have hc := hdigits c (List.mem_cons_self ..)
  have hspace := not_isSpace_of_isDigit hc
  have hsign : c ≠ 45 ∧ c ≠ 43 := by
    rw [isDigit_iff] at hc
    simp only [ne_eq, ← UInt8.toNat_inj, UInt8.reduceToNat]
    omega
  have htake : (c :: ds).takeWhile isDigit = c :: ds := List.takeWhile_eq_self_iff.mpr hdigits
  simp [strtol, hspace, hsign, htake, hval]

/-- A number that fits is read back from its decimal text. -/
theorem atoll_natToStr {n : ℕ} (h : n < 9223372036854775808) : atoll (natToStr n) = n := by
  have hstr : cStr (natToStr n) = natToStr n := by
    apply List.takeWhile_eq_self_iff.mpr
    intro c hc
    have hc := isDigit_natToStr hc
    rw [isDigit_iff] at hc
    simp only [bne_iff_ne, ne_eq, ← UInt8.toNat_inj, UInt8.reduceToNat]
    omega
  unfold atoll
  rw [hstr, strtol_natToStr, Option.getD_some]
  omega

end JuanSfu
