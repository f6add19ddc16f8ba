import VcmpLua.Lib.Effect
import VcmpLua.Proofs.HttpRequest
import VcmpLua.Spec.HttpOptions

/-! # What `http.request` accepts, and what it sends

Each field of the options is read on its own, so a request is accepted exactly when the options ask
for a well formed one, whatever the order of their keys. The timeout is the one field with arithmetic:
the product of a float is rounded before it is cut to whole milliseconds, and rounding does not leave
an interval between whole numbers. What `Http::Start` sets then makes libcurl send the method and the
body that were asked for, since no option of a GET or HEAD request turns it into a POST.
-/

namespace VcmpLua.Model.Modules

open Effect VcmpLua.Model.Core VcmpLua.Model.Lua VcmpLua.Model.Bindings VcmpLua.Spec

/-! ## Rounding -/

theorem roundHalfEven_le {num den bound : ℕ} (positive : 0 < den) (below : num ≤ bound * den) :
    Sql.roundHalfEven num den ≤ bound := by
  have split := Nat.div_add_mod num den
  have small := Nat.mod_lt num positive
  unfold Sql.roundHalfEven
  simp only
  split_ifs with down
  · exact Nat.div_le_of_le_mul (by rwa [Nat.mul_comm])
  · have rest : 0 < num % den := by omega
    have less : den * (num / den) < bound * den := by omega
    rw [Nat.mul_comm bound] at less
    exact Nat.lt_of_mul_lt_mul_left less

theorem le_roundHalfEven {num den bound : ℕ} (positive : 0 < den) (above : bound * den ≤ num) :
    bound ≤ Sql.roundHalfEven num den := by
  have kept : bound ≤ num / den := (Nat.le_div_iff_mul_le positive).mpr above
  unfold Sql.roundHalfEven
  simp only
  split_ifs
  · exact kept
  · omega

section Product

variable {product k bound : ℕ}

/-- A product that has less than 53 binary digits before the point is rounded behind the point. -/
theorem shift_le (small : product < 2 ^ (53 + k)) : product.log2 - 52 ≤ k := by
  by_cases zero : product = 0
  · subst zero
    exact Nat.zero_le _
  · have digits : product.log2 < 53 + k := (Nat.log2_lt zero).mpr small
    omega

/-- Rounding does not leave an interval between whole numbers. -/
theorem roundDouble_le (small : product < 2 ^ (53 + k)) (below : product ≤ bound * 2 ^ k) :
    roundDouble product ≤ bound * 2 ^ k := by
  have shift := shift_le small
  have split : bound * 2 ^ k = bound * 2 ^ (k - (product.log2 - 52)) * 2 ^ (product.log2 - 52) := by
    rw [Nat.mul_assoc, ← Nat.pow_add, Nat.sub_add_cancel shift]
  rw [split] at below ⊢
  exact Nat.mul_le_mul_right _ (roundHalfEven_le (Nat.two_pow_pos _) below)

theorem le_roundDouble (small : product < 2 ^ (53 + k)) (above : bound * 2 ^ k ≤ product) :
    bound * 2 ^ k ≤ roundDouble product := by
  have shift := shift_le small
  have split : bound * 2 ^ k = bound * 2 ^ (k - (product.log2 - 52)) * 2 ^ (product.log2 - 52) := by
    rw [Nat.mul_assoc, ← Nat.pow_add, Nat.sub_add_cancel shift]
  rw [split] at above ⊢
  exact Nat.mul_le_mul_right _ (le_roundHalfEven (Nat.two_pow_pos _) above)

/-- Cut to a whole number, a rounded product is off by less than one. -/
theorem floor_roundDouble (small : product < 2 ^ (53 + k)) :
    product < (roundDouble product / 2 ^ k + 1) * 2 ^ k ∧ roundDouble product / 2 ^ k * 2 ^ k < product + 2 ^ k := by
  have positive : 0 < 2 ^ k := Nat.two_pow_pos k
  have split := Nat.div_add_mod product (2 ^ k)
  have rest := Nat.mod_lt product positive
  constructor
  · have low : product / 2 ^ k * 2 ^ k ≤ roundDouble product := le_roundDouble small (Nat.div_mul_le_self _ _)
    have floor : product / 2 ^ k ≤ roundDouble product / 2 ^ k := (Nat.le_div_iff_mul_le positive).mpr low
    calc
      product < (product / 2 ^ k + 1) * 2 ^ k := Nat.lt_mul_of_div_lt (Nat.lt_succ_self _) positive
      _ ≤ _ := Nat.mul_le_mul_right _ (Nat.succ_le_succ floor)
  · by_cases whole : product % 2 ^ k = 0
    · have high : roundDouble product ≤ product / 2 ^ k * 2 ^ k := by
        apply roundDouble_le small
        rw [Nat.mul_comm]
        omega
      have kept := Nat.div_mul_le_self (roundDouble product) (2 ^ k)
      have back := Nat.div_mul_le_self product (2 ^ k)
      omega
    · have high : roundDouble product ≤ (product / 2 ^ k + 1) * 2 ^ k := by
        apply roundDouble_le small
        rw [Nat.add_mul, Nat.mul_comm]
        omega
      have kept := Nat.div_mul_le_self (roundDouble product) (2 ^ k)
      rw [Nat.add_mul, Nat.mul_comm] at high
      omega

end Product

section Milliseconds

variable {num k : ℕ}

theorem product_small (short : num ≤ kMaxTimeout * 2 ^ k) : num * 1000 < 2 ^ (53 + k) := by
  rw [Nat.pow_add]
  have positive : 0 < 2 ^ k := Nat.two_pow_pos k
  unfold kMaxTimeout at short
  omega

theorem milliseconds_le (short : num ≤ kMaxTimeout * 2 ^ k) : milliseconds num (2 ^ k) ≤ 3600000 := by
  have product : num * 1000 ≤ 3600000 * 2 ^ k := by
    unfold kMaxTimeout at short
    omega
  have rounded := roundDouble_le (product_small short) product
  rw [Nat.mul_comm 3600000] at rounded
  exact max_le (by omega) (Nat.div_le_of_le_mul rounded)

/-- The time is off by less than a millisecond. -/
theorem milliseconds_near (positive : 0 < num) (short : num ≤ kMaxTimeout * 2 ^ k) :
    num * 1000 < (milliseconds num (2 ^ k) + 1) * 2 ^ k ∧ milliseconds num (2 ^ k) * 2 ^ k < num * 1000 + 2 ^ k := by
  obtain ⟨above, below⟩ := floor_roundDouble (product_small short)
  unfold milliseconds
  rcases max_choice 1 (roundDouble (num * 1000) / 2 ^ k) with least | most
  · have zero : roundDouble (num * 1000) / 2 ^ k ≤ 1 := max_eq_left_iff.mp least
    rw [least]
    refine ⟨above.trans_le (Nat.mul_le_mul_right _ (Nat.succ_le_succ zero)), ?_⟩
    omega
  · rw [most]
    exact ⟨above, below⟩

end Milliseconds

/-! ## Fields -/

section Fields

variable {value : Value}

theorem near_of_milliseconds {num k : ℕ} (positive : 0 < num) (short : num ≤ kMaxTimeout * 2 ^ k) :
    |(milliseconds num (2 ^ k) : ℚ) - 1000 * (num / 2 ^ k)| < 1 := by
  obtain ⟨above, below⟩ := milliseconds_near positive short
  have above : (num * 1000 : ℚ) < (milliseconds num (2 ^ k) + 1) * 2 ^ k := by exact_mod_cast above
  have below : (milliseconds num (2 ^ k) * 2 ^ k : ℚ) < num * 1000 + 2 ^ k := by exact_mod_cast below
  have den : (0 : ℚ) < 2 ^ k := by positivity
  have product : (1000 * (num / 2 ^ k) : ℚ) = num * 1000 / 2 ^ k := by ring
  rw [product, abs_lt]
  constructor
  · have upper : (num * 1000 / 2 ^ k : ℚ) < milliseconds num (2 ^ k) + 1 := (div_lt_iff₀ den).mpr above
    linarith
  · have lower : (milliseconds num (2 ^ k) - 1 : ℚ) < num * 1000 / 2 ^ k := by
      rw [lt_div_iff₀ den]
      linarith
    linarith

theorem readTimeout_ok {timeoutMs : ℕ} (accepted : readTimeout value = .ok timeoutMs) :
    TimeoutAsked value timeoutMs ∧ 1 ≤ timeoutMs ∧ timeoutMs ≤ 3600000 := by
  cases value with
  | nil =>
    cases accepted
    exact ⟨.inl ⟨rfl, rfl⟩, by decide, by decide⟩
  | number number =>
    rw [readTimeout] at accepted
    cases ratio : number.ratio? with
    | none =>
      rw [ratio] at accepted
      cases accepted
    | some parts =>
      obtain ⟨negative, num, den⟩ := parts
      rw [ratio] at accepted
      simp only at accepted
      split_ifs at accepted with outside
      · cases accepted
      · cases accepted
        obtain ⟨⟨k, rfl⟩, same⟩ := ratio?_spec ratio
        simp only [not_or, Bool.not_eq_true, not_lt, gt_iff_lt] at outside
        obtain ⟨rfl, nonzero, short⟩ := outside
        have positive : 0 < num := Nat.pos_of_ne_zero nonzero
        refine ⟨.inr ⟨number, num / 2 ^ k, rfl, ?_, by positivity, ?_, ?_⟩, le_max_left _ _, milliseconds_le short⟩
        · rw [same]
          simp
        · have bound : (num : ℚ) ≤ 3600 * 2 ^ k := by exact_mod_cast short
          rwa [div_le_iff₀ (by positivity)]
        · exact near_of_milliseconds positive short
  | _ => cases accepted

theorem readTimeout_of_asked {timeoutMs : ℕ} (asked : TimeoutAsked value timeoutMs) :
    ∃ timeoutMs', readTimeout value = .ok timeoutMs' := by
  obtain ⟨rfl, -⟩ | ⟨number, seconds, rfl, held, positive, short, -⟩ := asked
  · exact ⟨_, rfl⟩
  · obtain ⟨negative, num, k, ratio, rfl⟩ := exists_ratio held
    have den : (0 : ℚ) < 2 ^ k := by positivity
    have sign : (0 : ℚ) ≤ num / 2 ^ k := by positivity
    cases negative with
    | true =>
      simp only [if_true] at positive
      linarith
    | false =>
      simp only [Bool.false_eq_true, if_false, one_mul] at positive short
      rw [div_le_iff₀ den] at short
      rw [readTimeout, ratio]
      simp only
      rw [if_neg]
      · exact ⟨_, rfl⟩
      · rintro (sign | rfl | long)
        · cases sign
        · simp at positive
        · have above : (3600 * 2 ^ k : ℚ) < num := by exact_mod_cast long
          linarith

theorem readRedirects_ok {maxRedirects : ℕ} (accepted : readRedirects value = .ok maxRedirects) :
    RedirectsAsked value maxRedirects ∧ maxRedirects ≤ 20 := by
  cases value with
  | nil =>
    cases accepted
    exact ⟨.inl ⟨rfl, rfl⟩, by decide⟩
  | number number =>
    rw [readRedirects] at accepted
    cases ratio : number.ratio? with
    | none =>
      rw [ratio] at accepted
      cases accepted
    | some parts =>
      obtain ⟨negative, num, den⟩ := parts
      rw [ratio] at accepted
      simp only at accepted
      split_ifs at accepted with outside
      · cases accepted
      · cases accepted
        obtain ⟨⟨k, rfl⟩, same⟩ := ratio?_spec ratio
        simp only [not_or, not_and, not_not, not_lt, gt_iff_lt] at outside
        obtain ⟨unsigned, few, whole⟩ := outside
        refine ⟨.inr ⟨number, rfl, ?_⟩, Nat.div_le_of_le_mul (by rwa [Nat.mul_comm])⟩
        rw [same]
        cases negative with
        | true =>
          rw [unsigned rfl]
          simp
        | false =>
          rw [Nat.cast_div (Nat.dvd_of_mod_eq_zero whole) (by positivity)]
          simp
  | _ => cases accepted

theorem readRedirects_of_asked {maxRedirects : ℕ} (asked : RedirectsAsked value maxRedirects) (few : maxRedirects ≤ 20) :
    readRedirects value = .ok maxRedirects := by
  obtain ⟨rfl, rfl⟩ | ⟨number, rfl, held⟩ := asked
  · rfl
  · obtain ⟨negative, num, k, ratio, same⟩ := exists_ratio held
    have den : (0 : ℚ) < 2 ^ k := by positivity
    rw [readRedirects, ratio]
    simp only
    cases negative with
    | true =>
      have sign : (0 : ℚ) ≤ num / 2 ^ k := by positivity
      have natural : (0 : ℚ) ≤ maxRedirects := by positivity
      simp only [if_true] at same
      have none : (num / 2 ^ k : ℚ) = 0 := by linarith
      have zero : num = 0 := by
        rcases div_eq_zero_iff.mp none with zero | zero
        · exact_mod_cast zero
        · exact absurd zero den.ne'
      have none' : maxRedirects = 0 := by
        rw [none, mul_zero] at same
        exact_mod_cast same
      subst zero none'
      simp
    | false =>
      have product : num = maxRedirects * 2 ^ k := by
        simp only [Bool.false_eq_true, if_false, one_mul] at same
        rw [eq_div_iff den.ne'] at same
        exact_mod_cast same.symm
      subst product
      rw [if_neg]
      · rw [Nat.mul_div_cancel _ (Nat.two_pow_pos k)]
      · rintro (⟨sign, -⟩ | many | part)
        · cases sign
        · have bound := Nat.mul_le_mul_right (2 ^ k) few
          omega
        · exact part (Nat.mul_mod_left _ _)

/-! ## Texts -/

theorem before_split {mark text scheme : Text} (found : before mark text = some scheme) :
    ∃ rest, text = scheme ++ mark ++ rest := by
  induction text generalizing scheme with
  | nil =>
    rw [before] at found
    split_ifs at found with empty
    cases found
    exact ⟨[], by simpa using empty⟩
  | cons char rest ih =>
    rw [before] at found
    split_ifs at found with here
    · cases found
      obtain ⟨after, same⟩ := List.isPrefixOf_iff_prefix.mp here
      exact ⟨after, by rw [← same, List.nil_append]⟩
    · obtain ⟨scheme', found', rfl⟩ := Option.map_eq_some_iff.mp found
      obtain ⟨after, rfl⟩ := ih found'
      exact ⟨after, by simp⟩

theorem before_of_absent {first : Char} {mark scheme rest : Text} (absent : first ∉ scheme) :
    before (first :: mark) (scheme ++ first :: mark ++ rest) = some scheme := by
  induction scheme with
  | nil =>
    rw [List.nil_append, List.cons_append, before, if_pos]
    rw [List.isPrefixOf_iff_prefix]
    exact List.prefix_append (first :: mark) rest
  | cons char scheme ih =>
    have different : first ≠ char := List.ne_of_not_mem_cons absent
    rw [List.cons_append, List.cons_append, before, if_neg, ih (List.not_mem_of_not_mem_cons absent)]
    · rfl
    · rw [List.isPrefixOf_iff_prefix, List.cons_prefix_cons]
      exact fun same => different same.1

theorem checkUrl_ok {url : Text} : checkUrl url = .ok () ↔ HttpUrl url := by
  constructor
  · intro accepted
    rw [checkUrl] at accepted
    cases found : before "://".toList url with
    | none =>
      rw [found] at accepted
      cases accepted
    | some scheme =>
      rw [found] at accepted
      simp only at accepted
      split_ifs at accepted with known
      · obtain ⟨rest, rfl⟩ := before_split found
        refine ⟨scheme, rest, rfl, ?_⟩
        simpa using known
      · cases accepted
  · rintro ⟨scheme, rest, rfl, known⟩
    have absent : ':' ∉ scheme := by
      intro member
      have lower : ':' ∈ scheme.map Char.toLower := List.mem_map.mpr ⟨':', member, rfl⟩
      rcases known with known | known <;> rw [known] at lower <;> revert lower <;> decide
    have found : before "://".toList (scheme ++ "://".toList ++ rest) = some scheme := before_of_absent absent
    rw [checkUrl, found]
    simp only
    rw [if_pos]
    simpa using known

theorem readUrl_ok {url : Text} : readUrl value = .ok url ↔ value = .string url ∧ HttpUrl url := by
  cases value with
  | string text =>
    rw [readUrl, except_bind_eq_ok]
    constructor
    · rintro ⟨_, proper, ran⟩
      cases ran
      exact ⟨rfl, checkUrl_ok.mp proper⟩
    · rintro ⟨same, proper⟩
      cases same
      exact ⟨(), checkUrl_ok.mpr proper, rfl⟩
  | _ => simp [readUrl, fieldError, refuse]

theorem readBody_ok {body : Option Text} : readBody value = .ok body ↔ value = body.elim .nil .string := by
  cases value with
  | nil => cases body <;> simp [readBody]
  | string text => cases body <;> simp [readBody]
  | _ => cases body <;> simp [readBody, fieldError, refuse]

/-- The letters of a method, and no body where none can be. -/
structure MethodAllowed (method : Text) (hasBody : Bool) : Prop where
  short : 1 ≤ method.length ∧ method.length ≤ 16
  letters : ∀ char ∈ method, 'A' ≤ char ∧ char ≤ 'Z'
  bodyless : hasBody = true → method ≠ "GET".toList ∧ method ≠ "HEAD".toList

theorem checkMethod_ok {text method : Text} {hasBody : Bool} :
    checkMethod text hasBody = .ok method ↔ method = text.map Char.toUpper ∧ MethodAllowed method hasBody := by
  unfold checkMethod
  simp only
  split_ifs with invalid bodily
  · constructor
    · intro refused
      cases refused
    · rintro ⟨rfl, ⟨nonempty, short⟩, letters, -⟩
      rcases invalid with empty | long | other
      · rw [List.isEmpty_iff] at empty
        rw [empty] at nonempty
        cases nonempty
      · omega
      · rw [Bool.not_eq_true', ← Bool.not_eq_true, List.all_eq_true] at other
        exact absurd (fun char member => decide_eq_true (letters char member)) other
  · constructor
    · intro refused
      cases refused
    · rintro ⟨rfl, -, -, bodyless⟩
      obtain ⟨notGet, notHead⟩ := bodyless bodily.1
      rcases bodily.2 with get | head
      · exact absurd get notGet
      · exact absurd head notHead
  · simp only [not_or, Bool.not_eq_true', Bool.not_eq_false, List.all_eq_true, decide_eq_true_eq, not_lt] at invalid
    obtain ⟨nonempty, short, letters⟩ := invalid
    rw [Except.ok.injEq, eq_comm]
    constructor
    · rintro rfl
      refine ⟨rfl, ⟨?_, short⟩, letters, fun body => ?_⟩
      · rw [Nat.one_le_iff_ne_zero, List.length_eq_zero_iff.ne]
        exact fun empty => nonempty (by rw [empty]; rfl)
      · exact ⟨fun get => bodily ⟨body, .inl get⟩, fun head => bodily ⟨body, .inr head⟩⟩
    · exact fun both => both.1

theorem readMethod_ok {method : Text} {hasBody : Bool} :
    readMethod value hasBody = .ok method ↔ MethodAsked value hasBody method ∧ MethodAllowed method hasBody := by
  cases value with
  | nil =>
    have upper : (if hasBody then "POST".toList else "GET".toList).map Char.toUpper =
        if hasBody then "POST".toList else "GET".toList := by
      split_ifs <;> rfl
    rw [readMethod, checkMethod_ok, upper]
    simp [MethodAsked]
  | string text =>
    rw [readMethod, checkMethod_ok]
    simp [MethodAsked]
  | _ => simp [readMethod, fieldError, refuse, MethodAsked]

/-! ## Headers -/

theorem readHeader_iff {entry : Entry} {line : Text} :
    readHeader entry = .ok line ↔ ∃ name value, HeaderAsked entry line name value := by
  constructor
  · intro accepted
    obtain ⟨name, value, ⟨key, shown, token, clean⟩, rfl⟩ := readHeader_ok accepted
    refine ⟨name, value, ⟨key, shown, ?_, token, clean, rfl⟩⟩
    rintro rfl
    rw [readHeader, key] at accepted
    cases accepted
  · rintro ⟨name, value, key, shown, nonempty, token, clean, rfl⟩
    rw [readHeader, key]
    simp only
    rw [if_neg, shown]
    · simp only
      rw [if_neg]
      simpa using clean
    · rw [not_or, Bool.not_eq_true', Bool.not_eq_false, List.all_eq_true]
      exact ⟨by simpa using nonempty, token⟩

theorem readHeaders_iff {entries : List Entry} {lines : List Text} :
    readHeaders entries = .ok lines ↔
      List.Forall₂ (fun entry line => ∃ name value, HeaderAsked entry line name value) entries lines := by
  induction entries generalizing lines with
  | nil =>
    rw [readHeaders, Except.ok.injEq, List.forall₂_nil_left_iff, eq_comm]
  | cons entry rest ih =>
    simp only [readHeaders, except_bind_eq_ok, readHeader_iff, ih, List.forall₂_cons_left_iff]
    constructor
    · rintro ⟨line, first, others, later, same⟩
      cases same
      exact ⟨line, others, first, later, rfl⟩
    · rintro ⟨line, others, first, later, rfl⟩
      exact ⟨line, first, others, later, rfl⟩

theorem readHeaderTable_ok {heap : Heap} {lines : List Text} :
    readHeaderTable heap value = .ok lines ↔ HeadersAsked heap value lines := by
  cases value with
  | nil => simp [readHeaderTable, HeadersAsked, eq_comm]
  | table id =>
    simp only [HeadersAsked, reduceCtorEq, false_and, false_or, Value.table.injEq, exists_eq_left', ← readHeaders_iff]
    rw [readHeaderTable]
    cases readHeaders (heap id).entries with
    | error error => simp
    | ok lines => simp
  | _ => simp [readHeaderTable, fieldError, refuse, HeadersAsked]

theorem checkFields_ok {tolstring : Value → Except String Text} {entries : List Entry} :
    checkFields tolstring entries = .ok () ↔ ∀ entry ∈ entries, ∃ field ∈ kFields, entry.1 = .string field := by
  induction entries with
  | nil => simp [checkFields]
  | cons entry rest ih =>
    rw [checkFields, List.forall_mem_cons]
    by_cases known : entry.1 ∈ kFields.map Value.string
    · rw [if_pos known, ih]
      obtain ⟨field, among, same⟩ := List.mem_map.mp known
      exact ⟨fun rest => ⟨⟨field, among, same.symm⟩, rest⟩, fun both => both.2⟩
    · rw [if_neg known]
      refine iff_of_false (fun accepted => ?_) ?_
      · cases name : tolstring entry.1 <;> rw [name] at accepted <;> cases accepted
      · rintro ⟨⟨field, among, same⟩, -⟩
        exact known (same ▸ List.mem_map_of_mem among)

end Fields

/-! ## Requests -/

section Requests

variable {heap other : Heap} {tolstring : Value → Except String Text} {argument : Option Value} {request : Request}

theorem clean_of_lines {entries : List Entry} {lines : List Text}
    (all : List.Forall₂ (fun entry line => ∃ name value, HeaderAsked entry line name value) entries lines) :
    ∀ line ∈ lines, ∀ char ∈ line, char ∉ ['\r', '\n', '\x00'] := by
  induction all with
  | nil => simp
  | cons first _ ih =>
    obtain ⟨name, value, key, shown, -, token, clean, rfl⟩ := first
    exact List.forall_mem_cons.mpr ⟨headerLine_clean ⟨key, shown, token, clean⟩, ih⟩

theorem clean_of_asked {value : Value} {lines : List Text} (asked : HeadersAsked heap value lines) :
    ∀ line ∈ lines, ∀ char ∈ line, char ∉ ['\r', '\n', '\x00'] := by
  obtain ⟨-, rfl⟩ | ⟨id, -, all⟩ := asked
  · simp
  · exact clean_of_lines all

theorem readRequest_url {url : Text} :
    readRequest heap tolstring (some (.string url)) = .ok request ↔
      HttpUrl url ∧ request = { url, method := "GET".toList } := by
  rw [readRequest, except_bind_eq_ok]
  constructor
  · rintro ⟨_, proper, ran⟩
    cases ran
    exact ⟨checkUrl_ok.mp proper, rfl⟩
  · rintro ⟨proper, rfl⟩
    exact ⟨(), checkUrl_ok.mpr proper, rfl⟩

/-- A request is well formed where each field is. -/
theorem asked_of_readRequest (accepted : readRequest heap tolstring argument = .ok request) :
    Asked heap argument request ∧ WellFormed request := by
  rcases argument with _ | value
  · cases accepted
  · cases value with
    | string url =>
      obtain ⟨proper, rfl⟩ := readRequest_url.mp accepted
      have letters : ∀ char ∈ "GET".toList, 'A' ≤ char ∧ char ≤ 'Z' := by simp
      have timeout : 1 ≤ ({} : Request).timeoutMs ∧ ({} : Request).timeoutMs ≤ 3600000 := by decide
      exact ⟨.url url, proper, ⟨by simp, by simp, letters⟩, by simp, by simp, timeout, by simp⟩
    | table id =>
      simp only [readRequest, except_bind_eq_ok] at accepted
      obtain ⟨_, known, url, one, body, two, method, three, headers, four, timeoutMs, five, maxRedirects, six, same⟩ := accepted
      cases same
      obtain ⟨held, proper⟩ := readUrl_ok.mp one
      obtain ⟨asked, allowed⟩ := readMethod_ok.mp three
      obtain ⟨timeout, range⟩ := readTimeout_ok five
      obtain ⟨redirects, few⟩ := readRedirects_ok six
      have lines := readHeaderTable_ok.mp four
      refine ⟨.options id _ ⟨checkFields_ok.mp known, held, ?_, asked, lines, timeout, redirects⟩, proper,
        ⟨allowed.short.1, allowed.short.2, allowed.letters⟩, ?_, fun line member => ?_, range, few⟩
      · rw [readBody_ok.mp two]
        cases body <;> rfl
      · cases body with
        | none => rfl
        | some body => exact allowed.bodyless rfl
      · have clean := clean_of_asked lines line member
        exact ⟨fun held => clean _ held (by simp), fun held => clean _ held (by simp), fun held => clean _ held (by simp)⟩
    | _ => cases accepted

/-- The fields are read in the order of the source; only the timeout can differ, by less than a millisecond. -/
theorem readRequest_of_asked (asked : Asked heap argument request) (proper : WellFormed request) :
    ∃ request', readRequest heap tolstring argument = .ok request' := by
  obtain ⟨scheme, method, body, -, -, few⟩ := proper
  cases asked with
  | url text => exact ⟨_, readRequest_url.mpr ⟨scheme, rfl⟩⟩
  | options id request asked =>
    let body' : Option Text := if request.hasBody then some request.body else none
    have bodyHeld : rawField (heap id) "body" = body'.elim .nil .string := by
      rw [asked.body]
      unfold body'
      cases request.hasBody <;> rfl
    have some' : body'.isSome = request.hasBody := by
      unfold body'
      cases request.hasBody <;> rfl
    have allowed : MethodAllowed request.method body'.isSome := by
      rw [some']
      refine ⟨⟨method.1, method.2.1⟩, method.2.2, fun bodily => ?_⟩
      rwa [if_pos bodily] at body
    obtain ⟨timeoutMs, five⟩ := readTimeout_of_asked asked.timeout
    refine ⟨{ request with timeoutMs, body := body'.getD [], hasBody := body'.isSome }, ?_⟩
    simp only [readRequest, except_bind_eq_ok]
    exact ⟨(), checkFields_ok.mpr asked.known, request.url, readUrl_ok.mpr ⟨asked.url, scheme⟩,
      body', readBody_ok.mpr bodyHeld, request.method, readMethod_ok.mpr ⟨some' ▸ asked.method, allowed⟩,
      request.headers, readHeaderTable_ok.mpr asked.headers, timeoutMs, five,
      request.maxRedirects, readRedirects_of_asked asked.redirects few, rfl⟩

theorem headersAsked_reordered (same : Reordered heap other) {value : Value} {lines : List Text}
    (asked : HeadersAsked heap value lines) : ∃ lines', lines.Perm lines' ∧ HeadersAsked other value lines' := by
  obtain ⟨rfl, rfl⟩ | ⟨id, rfl, all⟩ := asked
  · exact ⟨[], .refl [], .inl ⟨rfl, rfl⟩⟩
  · obtain ⟨lines', all', perm⟩ := List.perm_comp_forall₂ (same id).1.symm all
    exact ⟨lines', perm.symm, .inr ⟨id, rfl, all'⟩⟩

/-- Another order of the keys only changes the order of the header lines. -/
theorem readRequest_reordered (same : Reordered heap other) (accepted : readRequest heap tolstring argument = .ok request) :
    ∃ headers, request.headers.Perm headers ∧ readRequest other tolstring argument = .ok { request with headers } := by
  rcases argument with _ | value
  · cases accepted
  · cases value with
    | string url => exact ⟨request.headers, .refl _, accepted⟩
    | table id =>
      simp only [readRequest, except_bind_eq_ok] at accepted ⊢
      obtain ⟨_, known, url, one, body, two, method, three, headers, four, timeoutMs, five, maxRedirects, six, final⟩ := accepted
      cases final
      have held : ∀ field, rawField (other id) field = rawField (heap id) field := fun field => same.rawGet id _
      have known' : checkFields tolstring (other id).entries = .ok () := by
        rw [checkFields_ok] at known ⊢
        exact fun entry member => known entry ((same id).1.mem_iff.mpr member)
      obtain ⟨headers', perm, four'⟩ := headersAsked_reordered same (readHeaderTable_ok.mp four)
      simp only [held]
      exact ⟨headers', perm, (), known', url, one, body, two, method, three, headers', readHeaderTable_ok.mpr four',
        timeoutMs, five, maxRedirects, six, rfl⟩
    | _ => cases accepted

end Requests

/-! ## The easy handle -/

theorem cString_of_clean {text : Text} (clean : '\x00' ∉ text) : text.cString = text := by
  rw [Text.cString, List.takeWhile_eq_self_iff]
  intro char member
  rw [decide_eq_true_eq]
  rintro rfl
  exact clean member

section Handle

variable {request : Request}

/-- The handle before the method and the body are set. -/
def commonEasy (request : Request) : Easy where
  url := request.url.cString
  followLocation := decide (request.maxRedirects > 0)
  maxRedirs := request.maxRedirects
  timeoutMs := request.timeoutMs
  connectTimeoutMs := min 10000 request.timeoutMs
  httpHeader := headerList request.headers

theorem easyOf_eq (request : Request) :
    easyOf request = (bodyOptions request).foldl Easy.set ((methodOptions request).foldl Easy.set (commonEasy request)) := by
  rw [easyOf, easyOptions, List.foldl_append, List.foldl_append, List.foldl_append]
  congr 2
  unfold headerOptions
  cases none : request.headers <;> simp [Easy.set, commonEasy, none, headerList]

theorem methodOptions_set (easy : Easy) (clean : '\x00' ∉ request.method) :
    (methodOptions request).foldl Easy.set easy =
      if request.method = "HEAD".toList then { easy with kind := .head }
      else if request.method ≠ "GET".toList ∧ request.method ≠ "POST".toList then
        { easy with customRequest := some request.method }
      else easy := by
  unfold methodOptions
  split_ifs
  · rfl
  · rw [List.foldl_cons, List.foldl_nil, Easy.set, cString_of_clean clean]
  · rfl

theorem bodyOptions_set (easy : Easy) :
    (bodyOptions request).foldl Easy.set easy =
      if request.hasBody then
        { easy with kind := .post, postFieldSize := some request.body.length, postFields := request.body }
      else if request.method = "POST".toList then { easy with kind := .post, postFieldSize := some 0, postFields := [] }
      else easy := by
  unfold bodyOptions
  split_ifs
  · simp only [List.foldl_cons, List.foldl_nil, Easy.set, List.take_length]
  · rfl
  · rfl

/-- A HEAD request has no body, so its handle is not turned into that of a POST. -/
theorem sends_of_wellFormed (proper : WellFormed request) : Sends (easyOf request) request := by
  obtain ⟨-, ⟨-, -, letters⟩, body, headers, -, -⟩ := proper
  have clean : '\x00' ∉ request.method := fun member => absurd (letters _ member).1 (by decide)
  have lines : headerList request.headers = request.headers :=
    List.map_congr_left (fun line member => cString_of_clean (headers line member).2.2) |>.trans (List.map_id _)
  have redirects : (if (commonEasy request).followLocation then (commonEasy request).maxRedirs else 0) = request.maxRedirects := by
    simp only [commonEasy, decide_eq_true_eq]
    split_ifs <;> omega
  have timeout : (commonEasy request).connectTimeoutMs ≤ (commonEasy request).timeoutMs := min_le_right _ _
  rw [easyOf_eq, methodOptions_set _ clean, bodyOptions_set]
  cases bodily : request.hasBody with
  | true =>
    rw [bodily, if_pos rfl] at body
    rw [if_pos rfl, if_neg body.2]
    by_cases post : request.method = "POST".toList
    · rw [if_neg (by simp [post])]
      refine ⟨rfl, ?_, ?_, lines, redirects, rfl, timeout⟩
      · exact post.symm
      · simp [Easy.body?, bodily]
    · rw [if_pos ⟨body.1, post⟩]
      refine ⟨rfl, rfl, ?_, lines, redirects, rfl, timeout⟩
      simp [Easy.body?, bodily]
  | false =>
    rw [bodily, if_neg Bool.false_ne_true] at body
    rw [if_neg Bool.false_ne_true]
    by_cases post : request.method = "POST".toList
    · rw [if_pos post, if_neg (by simp [post]), if_neg (by simp [post])]
      refine ⟨rfl, ?_, ?_, lines, redirects, rfl, timeout⟩
      · exact post.symm
      · simp [Easy.body?, bodily, post]
    · rw [if_neg post]
      by_cases head : request.method = "HEAD".toList
      · rw [if_pos head]
        refine ⟨rfl, ?_, ?_, lines, redirects, rfl, timeout⟩
        · exact head.symm
        · rw [bodily, if_neg Bool.false_ne_true, if_neg post]
          rfl
      · rw [if_neg head]
        by_cases get : request.method = "GET".toList
        · rw [if_neg (by simp [get])]
          refine ⟨rfl, ?_, ?_, lines, redirects, rfl, timeout⟩
          · exact get.symm
          · rw [bodily, if_neg Bool.false_ne_true, if_neg post]
            rfl
        · rw [if_pos ⟨get, post⟩]
          refine ⟨rfl, rfl, ?_, lines, redirects, rfl, timeout⟩
          rw [bodily, if_neg Bool.false_ne_true, if_neg post]
          rfl

end Handle

/-- `{url = "https://a", method = "put", body = "x", timeout = 0.29}`. The product of the timeout with 1000
is rounded up to 290. -/
def putOptions : Table where
  entries := [(.string "url".toList, .string "https://a".toList), (.string "method".toList, .string "put".toList),
    (.string "body".toList, .string ['x']),
    (.string "timeout".toList, .number (.finite false 5224175567749775 (-54)))]
  distinct := by decide
  present := by decide
  border := by decide

end VcmpLua.Model.Modules
