import Sexp.Json.Canonical

/-! # Reading JSON is exact

A value is read as a form just if `Form.canonicalJson` makes of it what that form is written as, and
tokens are read alike, as far as their places fit into 64 bits.

`Json.Exact` says so of one reader, and the readers are put together as the types are:

* `Json.Exact.field`, `Json.Exact.nullable` — a field that a structure knows;
* `Json.completed_eq_obj_iff` — a structure is completed to a row of fields just if each field it
  knows comes out as the one in that place;
* `Atom.ofTagged?_eq_some_iff` — the choices that forms and tokens share.

What is written is canonical already, so it is read back (`Json.Exact.read_write`).
-/

namespace Sexp

namespace Json

/-! ## Exact readers -/

section Exact

variable {α : Type}

/-- A value is read as `a` just if `a` is valid and is written as the canonical value. -/
def Exact (valid : α → Prop) (read : Json → Option α) (canonical : Json → Json)
    (write : α → Json) : Prop :=
  ∀ j a, read j = some a ↔ valid a ∧ canonical j = write a

variable {read : Json → Option α} {canonical : Json → Json} {write : α → Json} {valid : α → Prop}

/-- Where writing gives canonical values, whatever is valid is read back. -/
theorem Exact.read_write (h : Exact valid read canonical write)
    (hwrite : ∀ a, canonical (write a) = write a) (a : α) :
    read (write a) = some a ↔ valid a := by
  rw [h, hwrite]
  exact and_iff_left rfl

theorem Exact.write_injective (h : Exact (fun _ => True) read canonical write)
    (hwrite : ∀ a, canonical (write a) = write a) : Function.Injective write := by
  intro a b hab
  have ha := (h.read_write hwrite a).mpr trivial
  rw [hab, (h.read_write hwrite b).mpr trivial] at ha
  exact (Option.some.inj ha).symm

theorem exact_str : Exact (fun _ => True) str? id Json.str := by
  intro j s
  cases j <;> simp [str?]

theorem exact_bool : Exact (fun _ => True) bool? id Json.bool := by
  intro j b
  cases j <;> simp [bool?]

theorem exact_word : Exact (· < UInt64.size) word? id nat := by
  intro j n
  cases j with
  | int i =>
    cases i with
    | ofNat m =>
      simp only [word?, id_eq, nat, Json.int.injEq, Int.ofNat_eq_natCast, Int.natCast_inj]
      constructor
      · intro h
        split at h
        next hm =>
          cases h
          exact ⟨hm, rfl⟩
        next => cases h
      · rintro ⟨hn, rfl⟩
        rw [if_pos hn]
    | negSucc m => simp [word?, nat]
  | _ => simp [word?, nat]

/-- A value that may be null is read exactly, if nothing else is null or becomes null. -/
theorem Exact.orNull (h : Exact (fun _ => True) read canonical write)
    (hread : read .null = none) (hcanonical : ∀ j, canonical j = .null ↔ j = .null) :
    Exact (fun _ => True) (orNull? read) canonical (Json.orNull write) := by
  intro j o
  by_cases hj : j = .null
  · rw [hj, (hcanonical .null).mpr rfl]
    cases o with
    | none => simp [orNull?, Json.orNull]
    | some a =>
      -- else null would have been read
      have hne : write a ≠ .null := by
        intro hnull
        have hsome := (h .null a).mpr ⟨trivial, by rw [hnull, (hcanonical .null).mpr rfl]⟩
        rw [hread] at hsome
        cases hsome
      simpa [orNull?, Json.orNull] using hne.symm
  · have hmap : orNull? read j = (read j).map some := by
      cases j <;> first | rfl | exact absurd rfl hj
    rw [hmap]
    cases o with
    | none => simpa [Json.orNull] using fun hnull => hj ((hcanonical j).mp hnull)
    | some a => simpa [Json.orNull] using h j a

end Exact

end Json

/-! ## Structures -/

/-- What a structure keeps of a field it knows. -/
def KnownField.keep? (k : KnownField) (fields : List (String × Json)) : Option (String × Json) :=
  match fields.lookup k.name with
  | some j => some (k.name, k.canonical j)
  | none => if k.nullable then some (k.name, .null) else none

namespace Json

/-- Each known field comes out at most once, so a row of as many fields has one for each. -/
theorem filterMap_eq_iff {α β : Type} {f : α → Option β} {as : List α} {bs : List β}
    (h : as.length = bs.length) : as.filterMap f = bs ↔ as.map f = bs.map some := by
  constructor
  · rintro rfl
    have hsome : ∀ o ∈ as.map f, o.isSome := by
      simpa using List.filterMap_length_eq_length.mp h.symm
    rw [List.map_filterMap_some_eq_filter_map_isSome, List.filter_eq_self.mpr hsome]
  · intro hmap
    have hid : (as.map f).filterMap id = as.filterMap f := by simp
    rw [← hid, hmap]
    simp

theorem completed_eq_obj_iff {known : List KnownField} {fields entries : List (String × Json)}
    (h : known.length = entries.length) :
    completed known (.obj fields) = .obj entries ↔
      known.map (·.keep? fields) = entries.map some := by
  rw [← filterMap_eq_iff h]
  exact ⟨Json.obj.inj, congrArg Json.obj⟩

theorem completed_eq_null_iff (known : List KnownField) (j : Json) :
    completed known j = .null ↔ j = .null := by
  cases j <;> simp [completed]

section Exact

variable {α : Type} {read : Json → Option α} {canonical : Json → Json} {write : α → Json}
  {valid : α → Prop}

/-- A field that must be there is read just if the structure keeps it as it is written. -/
theorem Exact.field (h : Exact valid read canonical write) (hread : read .null = none)
    (name : String) (fields : List (String × Json)) (a : α) :
    read (Json.field name fields) = some a ↔
      valid a ∧ KnownField.keep? ⟨name, false, canonical⟩ fields = some (name, write a) := by
  cases hfield : fields.lookup name with
  | none => simp [Json.field, KnownField.keep?, hfield, hread]
  | some j => simp [Json.field, KnownField.keep?, hfield, h j a]

/-- A field that may be missing is read just if the structure keeps it as it is written. -/
theorem Exact.nullable (h : Exact (fun _ => True) read canonical write)
    (hread : read .null = none) (hcanonical : ∀ j, canonical j = .null ↔ j = .null) (name : String)
    (fields : List (String × Json)) (o : Option α) :
    orNull? read (Json.field name fields) = some o ↔
      KnownField.keep? ⟨name, true, canonical⟩ fields = some (name, Json.orNull write o) := by
  have hnull : canonical .null = .null := (hcanonical .null).mpr rfl
  rw [h.orNull hread hcanonical]
  cases hfield : fields.lookup name with
  | none => simp [Json.field, KnownField.keep?, hfield, hnull]
  | some j => simp [Json.field, KnownField.keep?, hfield]

end Exact

end Json

/-! ## Numerals -/

theorem Sign.exact : Json.Exact (fun _ => True) Sign.ofJson? id Sign.toJson := by
  intro j s
  constructor
  · intro h
    unfold ofJson? at h
    split at h <;> cases h <;> exact ⟨trivial, rfl⟩
  · rintro ⟨-, rfl⟩
    cases s <;> rfl

theorem ExponentMarker.exact :
    Json.Exact (fun _ => True) ExponentMarker.ofJson? id ExponentMarker.toJson := by
  intro j m
  constructor
  · intro h
    unfold ofJson? at h
    split at h <;> cases h <;> exact ⟨trivial, rfl⟩
  · rintro ⟨-, rfl⟩
    cases m <;> rfl

/-- A sign that may be missing. -/
theorem Sign.field_iff (fields : List (String × Json)) (o : Option Sign) :
    Json.orNull? ofJson? (Json.field "sign" fields) = some o ↔
      KnownField.keep? ⟨"sign", true, id⟩ fields = some ("sign", Json.orNull toJson o) :=
  Sign.exact.nullable rfl (fun _ => Iff.rfl) "sign" fields o

theorem Exponent.exact :
    Json.Exact (fun _ => True) Exponent.ofJson? Exponent.canonicalJson Exponent.toJson := by
  rintro j ⟨marker, sign, digits⟩
  cases j with
  | obj fields =>
    have hread : ofJson? (.obj fields) = some ⟨marker, sign, digits⟩ ↔
        ExponentMarker.ofJson? (Json.field "label" fields) = some marker ∧
          Json.orNull? Sign.ofJson? (Json.field "sign" fields) = some sign ∧
            (Json.field "digits" fields).str? = some digits := by
      simp only [ofJson?, Json.fields?, Option.bind_eq_bind, Option.bind_some,
        Option.bind_eq_some_iff]
      grind
    rw [hread, ExponentMarker.exact.field rfl, Sign.field_iff, Json.exact_str.field rfl, toJson,
      canonicalJson, Json.completed_eq_obj_iff rfl]
    simp
  | _ => simp [ofJson?, Json.fields?, canonicalJson, Json.completed, toJson]

theorem Exponent.field_iff (fields : List (String × Json)) (o : Option Exponent) :
    Json.orNull? ofJson? (Json.field "exponent" fields) = some o ↔
      KnownField.keep? ⟨"exponent", true, canonicalJson⟩ fields =
        some ("exponent", Json.orNull toJson o) :=
  Exponent.exact.nullable rfl (Json.completed_eq_null_iff _) "exponent" fields o

namespace Numeral

theorem integerOfJson?_eq_some_iff (j : Json) (n : Numeral) :
    integerOfJson? j = some n ↔ ("Integer", Atom.canonicalJson "Integer" j) = n.tagged := by
  cases n with
  | integer sign digits =>
    cases j with
    | obj fields =>
      have hread : integerOfJson? (.obj fields) = some (.integer sign digits) ↔
          Json.orNull? Sign.ofJson? (Json.field "sign" fields) = some sign ∧
            (Json.field "digits" fields).str? = some digits := by
        simp only [integerOfJson?, Json.fields?, Option.bind_eq_bind, Option.bind_some,
          Option.bind_eq_some_iff]
        grind
      simp only [tagged, Atom.canonicalJson, reduceIte, Prod.mk.injEq, true_and]
      rw [hread, Sign.field_iff, Json.exact_str.field rfl, Json.completed_eq_obj_iff rfl]
      simp
    | _ => simp [integerOfJson?, Json.fields?, tagged, Atom.canonicalJson, Json.completed]
  | decimal sign whole fraction exponent =>
    simp [integerOfJson?, tagged, Option.bind_eq_some_iff]

theorem decimalOfJson?_eq_some_iff (j : Json) (n : Numeral) :
    decimalOfJson? j = some n ↔ ("Float", Atom.canonicalJson "Float" j) = n.tagged := by
  cases n with
  | integer sign digits => simp [decimalOfJson?, tagged, Option.bind_eq_some_iff]
  | decimal sign whole fraction exponent =>
    cases j with
    | obj fields =>
      have hread : decimalOfJson? (.obj fields) = some (.decimal sign whole fraction exponent) ↔
          Json.orNull? Sign.ofJson? (Json.field "sign" fields) = some sign ∧
            (Json.field "integer_part" fields).str? = some whole ∧
              (Json.field "decimal_part" fields).str? = some fraction ∧
                Json.orNull? Exponent.ofJson? (Json.field "exponent" fields) = some exponent := by
        simp only [decimalOfJson?, Json.fields?, Option.bind_eq_bind, Option.bind_some,
          Option.bind_eq_some_iff]
        grind
      simp only [tagged, Atom.canonicalJson, String.reduceEq, reduceIte, Prod.mk.injEq, true_and]
      rw [hread, Sign.field_iff, Json.exact_str.field rfl, Json.exact_str.field rfl,
        Exponent.field_iff, Json.completed_eq_obj_iff rfl]
      simp
    | _ => simp [decimalOfJson?, Json.fields?, tagged, Atom.canonicalJson, Json.completed]

end Numeral

/-! ## Atoms -/

namespace Atom

theorem canonicalJson_of_ne {tag : String} (hi : tag ≠ "Integer") (hf : tag ≠ "Float") (j : Json) :
    canonicalJson tag j = j := by
  simp [canonicalJson, hi, hf]

theorem tagged_numeral_ne {tag : String} (hi : tag ≠ "Integer") (hf : tag ≠ "Float") (j : Json)
    (n : Numeral) : (tag, j) ≠ n.tagged := by
  cases n <;> simp [Numeral.tagged, hi, hf]

/-- A choice is read just if it is, in its canonical form, what the atom is written as.  Both names
of the choice of a string are told apart from those of the other choices. -/
theorem ofTagged?_eq_some_iff {stringTag : String}
    (hs : stringTag = "String" ∨ stringTag = "StringLiteral") (tag : String) (j : Json) (a : Atom) :
    ofTagged? stringTag tag j = some a ↔ (tag, canonicalJson tag j) = a.tagged stringTag := by
  have hnames : ∀ t ∈ ["Integer", "Float", "Boolean", "Keyword", "Symbol"], t ≠ stringTag := by
    rcases hs with rfl | rfl <;> decide
  simp only [List.forall_mem_cons, List.not_mem_nil, false_implies, implies_true, and_true]
    at hnames
  obtain ⟨hinteger, hfloat, hboolean, hkeyword, hsymbol⟩ := hnames
  fun_cases ofTagged? stringTag tag j with
  | case1 h =>
    subst h
    cases a with
    | numeral n => simpa [tagged] using Numeral.integerOfJson?_eq_some_iff j n
    | _ => simp [tagged, hinteger]
  | case2 _ h =>
    subst h
    cases a with
    | numeral n => simpa [tagged] using Numeral.decimalOfJson?_eq_some_iff j n
    | _ => simp [tagged, hfloat]
  | case3 hi hf h =>
    -- from here on the contents are no structure, so they are canonical as they are
    rw [canonicalJson_of_ne hi hf]
    subst h
    cases a with
    | numeral n => simpa [tagged] using tagged_numeral_ne hi hf j n
    | boolean value => simpa [tagged] using Json.exact_bool j value
    | _ => simp [tagged, hboolean]
  | case4 hi hf _ h =>
    rw [canonicalJson_of_ne hi hf]
    subst h
    cases a with
    | numeral n => simpa [tagged] using tagged_numeral_ne hi hf j n
    | keyword text => simpa [tagged] using Json.exact_str j text
    | _ => simp [tagged, hkeyword]
  | case5 hi hf hb hk h =>
    rw [canonicalJson_of_ne hi hf]
    subst h
    cases a with
    | numeral n => simpa [tagged] using tagged_numeral_ne hi hf j n
    | string body => simpa [tagged] using Json.exact_str j body
    | _ => simp [tagged, hb, hk, hsymbol.symm]
  | case6 hi hf hb hk _ h =>
    rw [canonicalJson_of_ne hi hf]
    subst h
    cases a with
    | numeral n => simpa [tagged] using tagged_numeral_ne hi hf j n
    | symbol name => simpa [tagged] using Json.exact_str j name
    | _ => simp [tagged, hsymbol]
  | case7 hi hf hb hk hstring hsym =>
    rw [canonicalJson_of_ne hi hf]
    cases a with
    | numeral n => simpa [tagged] using tagged_numeral_ne hi hf j n
    | _ => simp [tagged, hb, hk, hstring, hsym]

theorem canonicalJson_tagged {stringTag : String}
    (hs : stringTag = "String" ∨ stringTag = "StringLiteral") (a : Atom) :
    canonicalJson (a.tagged stringTag).1 (a.tagged stringTag).2 = (a.tagged stringTag).2 := by
  cases a with
  | numeral n =>
    cases n with
    | integer sign digits =>
      simp [tagged, Numeral.tagged, canonicalJson, Json.completed, List.lookup_cons]
    | decimal sign whole fraction exponent =>
      cases exponent with
      | none =>
        simp [tagged, Numeral.tagged, canonicalJson, Json.completed, List.lookup_cons, Json.orNull,
          Exponent.canonicalJson]
      | some e =>
        simp [tagged, Numeral.tagged, canonicalJson, Json.completed, List.lookup_cons, Json.orNull,
          Exponent.canonicalJson, Exponent.toJson]
  | string body => rcases hs with rfl | rfl <;> rfl
  | _ => rfl

/-- The contents of an atom are no array, so they are told from those of a collection. -/
theorem tagged_ne_arr (stringTag : String) (a : Atom) (elements : List Json) :
    (a.tagged stringTag).2 ≠ .arr elements := by
  cases a with
  | numeral n => cases n <;> simp [tagged, Numeral.tagged]
  | _ => simp [tagged]

end Atom

/-! ## Forms -/

theorem Delimiter.ofCollectionTag?_eq_some_iff {tag : String} {d : Delimiter} :
    ofCollectionTag? tag = some d ↔ tag = d.collectionTag := by
  cases d <;> grind [ofCollectionTag?, collectionTag]

namespace Form

theorem canonicalJson_of_ne_arr {tag : String} {payload : Json}
    (h : ∀ elements, payload ≠ .arr elements) :
    canonicalJson (.obj [(tag, payload)]) = .obj [(tag, Atom.canonicalJson tag payload)] := by
  rw [canonicalJson]
  exact h

theorem ofTagged?_of_ne_arr {tag : String} {payload : Json}
    (h : ∀ elements, payload ≠ .arr elements) :
    ofTagged? tag payload = (Atom.ofTagged? "StringLiteral" tag payload).map .atom := by
  rw [ofTagged?]
  exact h

theorem ofTagged?_arr_ne_atom (tag : String) (js : List Json) (a : Atom) :
    ofTagged? tag (.arr js) ≠ some (.atom a) := by
  rw [ofTagged?]
  split <;> simp

theorem ne_tagged_atom (tag : String) (js : List Json) (a : Atom) :
    Json.obj [(tag, .arr js)] ≠ .obj [a.tagged "StringLiteral"] := by
  intro h
  have hpayload : a.tagged "StringLiteral" = (tag, .arr js) := by simpa using h.symm
  exact Atom.tagged_ne_arr _ a js (by rw [hpayload])

/-- Rows of forms are read exactly, if their forms are. -/
theorem listOfJson?_eq_some_iff {fs : List Form}
    (h : ∀ f ∈ fs, ∀ j, ofJson? j = some f ↔ canonicalJson j = f.toJson) (js : List Json) :
    listOfJson? js = some fs ↔ js.map canonicalJson = fs.map toJson := by
  induction fs generalizing js with
  | nil => cases js <;> simp [listOfJson?, Option.bind_eq_some_iff]
  | cons f fs ih =>
    cases js with
    | nil => simp [listOfJson?]
    | cons j js =>
      have hread : listOfJson? (j :: js) = some (f :: fs) ↔
          ofJson? j = some f ∧ listOfJson? js = some fs := by
        simp only [listOfJson?, Option.bind_eq_bind, Option.bind_eq_some_iff]
        grind
      rw [hread, h f (by simp), ih fun g hg => h g (by simp [hg])]
      simp

/-- Whatever is read or written is an object with one field. -/
theorem ofJson?_eq_some_iff_of_ne {j : Json} (h : ∀ tag payload, j ≠ .obj [(tag, payload)])
    (f : Form) : ofJson? j = some f ↔ j = f.toJson := by
  constructor
  · intro hread
    unfold ofJson? at hread
    split at hread
    next tag payload => exact absurd rfl (h tag payload)
    next => cases hread
  · intro hj
    cases f with
    | atom a => exact absurd (hj.trans (by rw [toJson])) (h (a.tagged "StringLiteral").1 _)
    | collection d elements => exact absurd (hj.trans (by rw [toJson])) (h d.collectionTag _)

theorem ofJson?_eq_some_iff (f : Form) (j : Json) :
    ofJson? j = some f ↔ canonicalJson j = f.toJson := by
  induction f generalizing j with
  | atom a =>
    fun_cases canonicalJson j with
    | case1 tag js h =>
      rw [ofJson?, toJson]
      exact iff_of_false (ofTagged?_arr_ne_atom tag js a) (ne_tagged_atom tag _ a)
    | case2 tag js h =>
      rw [ofJson?, toJson]
      exact iff_of_false (ofTagged?_arr_ne_atom tag js a) (ne_tagged_atom tag js a)
    | case3 tag payload h =>
      rw [ofJson?, ofTagged?_of_ne_arr h, toJson]
      simp [Atom.ofTagged?_eq_some_iff]
    | case4 j _ h => exact ofJson?_eq_some_iff_of_ne h _
  | collection d elements ih =>
    fun_cases canonicalJson j with
    | case1 tag js h =>
      obtain ⟨d', hd⟩ := Option.isSome_iff_exists.mp h
      obtain rfl := Delimiter.ofCollectionTag?_eq_some_iff.mp hd
      have htag : d'.collectionTag = d.collectionTag ↔ d' = d := by
        rw [← Delimiter.ofCollectionTag?_eq_some_iff, hd, Option.some.injEq]
      have hread : ofJson? (.obj [(d'.collectionTag, .arr js)]) = some (.collection d elements) ↔
          d' = d ∧ listOfJson? js = some elements := by
        simp only [ofJson?, ofTagged?, hd, Option.map_eq_some_iff, collection.injEq]
        grind
      rw [hread, listOfJson?_eq_some_iff ih, toJson]
      simp [htag]
    | case2 tag js h =>
      have hnone : Delimiter.ofCollectionTag? tag = none := by simpa using h
      have htag : tag ≠ d.collectionTag := by
        rw [ne_eq, ← Delimiter.ofCollectionTag?_eq_some_iff, hnone]
        simp
      simp [ofJson?, ofTagged?, hnone, toJson, htag]
    | case3 tag payload h =>
      rw [ofJson?, ofTagged?_of_ne_arr h, toJson]
      simp only [Option.map_eq_some_iff, reduceCtorEq, and_false, exists_false, Json.obj.injEq,
        List.cons.injEq, Prod.mk.injEq, and_true, false_iff, not_and]
      rintro rfl
      -- the contents of a collection are canonical as they are, and an array
      rw [Atom.canonicalJson_of_ne (by cases d <;> decide) (by cases d <;> decide)]
      exact h _
    | case4 j _ h => exact ofJson?_eq_some_iff_of_ne h _

/-- What a form is written as is canonical. -/
theorem canonicalJson_toJson (f : Form) : canonicalJson f.toJson = f.toJson := by
  induction f with
  | atom a =>
    rw [toJson, canonicalJson_of_ne_arr (Atom.tagged_ne_arr "StringLiteral" a),
      Atom.canonicalJson_tagged (.inr rfl)]
  | collection d elements ih =>
    have hrow : (elements.map toJson).map canonicalJson = elements.map toJson := by
      simpa using ih
    have htag : (Delimiter.ofCollectionTag? d.collectionTag).isSome := by cases d <;> rfl
    rw [toJson, canonicalJson, if_pos htag, hrow]

theorem exact : Json.Exact (fun _ => True) ofJson? canonicalJson toJson := by
  intro j f
  rw [ofJson?_eq_some_iff]
  exact (and_iff_right trivial).symm

end Form

/-! ## Tokens -/

namespace Position

/-- The numbers of a position fit into 64 bits. -/
structure FitsWords (p : Position) : Prop where
  offset_lt : p.offset < UInt64.size
  line_lt : p.line < UInt64.size
  column_lt : p.column < UInt64.size

theorem fitsWords_iff {p : Position} :
    p.FitsWords ↔ p.offset < UInt64.size ∧ p.line < UInt64.size ∧ p.column < UInt64.size :=
  ⟨fun h => ⟨h.1, h.2, h.3⟩, fun h => ⟨h.1, h.2.1, h.2.2⟩⟩

theorem exact : Json.Exact FitsWords ofJson? canonicalJson toJson := by
  rintro j ⟨offset, line, column⟩
  cases j with
  | obj fields =>
    have hread : ofJson? (.obj fields) = some ⟨offset, line, column⟩ ↔
        (Json.field "offset" fields).word? = some offset ∧
          (Json.field "line" fields).word? = some line ∧
            (Json.field "column" fields).word? = some column := by
      simp only [ofJson?, Json.fields?, Option.bind_eq_bind, Option.bind_some,
        Option.bind_eq_some_iff]
      grind
    rw [hread, Json.exact_word.field rfl, Json.exact_word.field rfl, Json.exact_word.field rfl,
      toJson, canonicalJson, Json.completed_eq_obj_iff rfl, fitsWords_iff]
    simp only [List.map_cons, List.map_nil, List.cons.injEq, and_true]
    grind
  | _ => simp [ofJson?, Json.fields?, canonicalJson, Json.completed, toJson]

theorem canonicalJson_toJson (p : Position) : canonicalJson p.toJson = p.toJson := by
  simp [canonicalJson, toJson, Json.completed, List.lookup_cons]

theorem toJson_injective : Function.Injective toJson := by
  rintro ⟨offset, line, column⟩ ⟨offset', line', column'⟩ h
  simp only [toJson, Json.nat, Json.obj.injEq, List.cons.injEq, Prod.mk.injEq, Json.int.injEq,
    Int.natCast_inj, true_and, and_true] at h
  simpa using h

end Position

namespace Token

namespace Kind

/-- A choice without contents is canonical as it is. -/
theorem eq_str_of_canonicalJson {j : Json} {s : String} (h : canonicalJson j = .str s) :
    j = .str s := by
  fun_cases canonicalJson j with
  | case1 tag payload => simp [canonicalJson] at h
  | case2 j hne =>
    rw [canonicalJson] at h
    · exact h
    · exact hne

theorem exact : Json.Exact (fun _ => True) ofJson? canonicalJson toJson := by
  intro j k
  constructor
  · intro h
    unfold ofJson? at h
    split at h
    case h_6 tag payload =>
      obtain ⟨a, ha, rfl⟩ := Option.map_eq_some_iff.mp h
      rw [Atom.ofTagged?_eq_some_iff (.inl rfl)] at ha
      rw [canonicalJson, ha]
      exact ⟨trivial, rfl⟩
    -- the other choices have no contents, and what is no choice is not read
    all_goals cases h <;> exact ⟨trivial, rfl⟩
  · rintro ⟨-, h⟩
    match k with
    | .terminal (.atom a) =>
      fun_cases canonicalJson j with
      | case1 tag payload =>
        have hatom : (tag, Atom.canonicalJson tag payload) = a.tagged "String" := by
          simpa [canonicalJson, toJson] using h
        rw [ofJson?, (Atom.ofTagged?_eq_some_iff (.inl rfl) tag payload a).mpr hatom]
        rfl
      | case2 j hne =>
        rw [canonicalJson] at h
        · exact absurd h (hne _ _)
        · exact hne
    | .terminal (.opening d) => cases d <;> rw [eq_str_of_canonicalJson h] <;> rfl
    | .terminal (.closing d) => cases d <;> rw [eq_str_of_canonicalJson h] <;> rfl
    | .eof =>
      rw [eq_str_of_canonicalJson h]
      rfl

theorem canonicalJson_toJson (k : Kind) : canonicalJson k.toJson = k.toJson := by
  match k with
  | .terminal (.atom a) =>
    have hatom := Atom.canonicalJson_tagged (.inl rfl) a
    rw [toJson, canonicalJson, hatom]
  | .terminal (.opening d) => cases d <;> rfl
  | .terminal (.closing d) => cases d <;> rfl
  | .eof => rfl

end Kind

theorem exact :
    Json.Exact (fun t => t.position.FitsWords) ofJson? canonicalJson toJson := by
  rintro j ⟨kind, lexeme, position⟩
  cases j with
  | obj fields =>
    have hread : ofJson? (.obj fields) = some ⟨kind, lexeme, position⟩ ↔
        Kind.ofJson? (Json.field "kind" fields) = some kind ∧
          (Json.field "lexeme" fields).str? = some lexeme ∧
            Position.ofJson? (Json.field "position" fields) = some position := by
      simp only [ofJson?, Json.fields?, Option.bind_eq_bind, Option.bind_some,
        Option.bind_eq_some_iff]
      grind
    rw [hread, Kind.exact.field rfl, Json.exact_str.field rfl, Position.exact.field rfl, toJson,
      canonicalJson, Json.completed_eq_obj_iff rfl]
    simp only [List.map_cons, List.map_nil, List.cons.injEq, and_true, true_and]
    grind
  | _ => simp [ofJson?, Json.fields?, canonicalJson, Json.completed, toJson]

theorem canonicalJson_toJson (t : Token) : canonicalJson t.toJson = t.toJson := by
  simp [canonicalJson, toJson, Json.completed, List.lookup_cons, Kind.canonicalJson_toJson,
    Position.canonicalJson_toJson]

/-- Tokens are told apart by what they are written as even where their places do not fit. -/
theorem toJson_injective : Function.Injective toJson := by
  rintro ⟨kind, lexeme, position⟩ ⟨kind', lexeme', position'⟩ h
  simp only [toJson, Json.obj.injEq, List.cons.injEq, Prod.mk.injEq, Json.str.injEq, true_and,
    and_true] at h
  obtain ⟨hkind, rfl, hposition⟩ := h
  rw [Kind.exact.write_injective Kind.canonicalJson_toJson hkind,
    Position.toJson_injective hposition]

end Token

/-! ## Nothing is lost in writing -/

/-- A JSON value is read as a form just if it becomes what the form is written as once the fields
that structures do not know are dropped and the nullable ones that are missing are added as null.
Tokens are read alike, and their places fit into 64 bits.  So every form is read back from what it
is written as, and every token whose place fits, and different ones are written differently. -/
theorem read_json_exactly :
    (∀ (j : Json) (f : Form), Form.ofJson? j = some f ↔ Form.canonicalJson j = f.toJson) ∧
      (∀ (j : Json) (t : Token), Token.ofJson? j = some t ↔
        t.position.FitsWords ∧ Token.canonicalJson j = t.toJson) ∧
      (∀ f : Form, Form.ofJson? f.toJson = some f) ∧
      (∀ t : Token, Token.ofJson? t.toJson = some t ↔ t.position.FitsWords) ∧
      Function.Injective Form.toJson ∧ Function.Injective Token.toJson := by
  refine ⟨fun j f => Form.ofJson?_eq_some_iff f j, Token.exact, ?_,
    Token.exact.read_write Token.canonicalJson_toJson,
    Form.exact.write_injective Form.canonicalJson_toJson, Token.toJson_injective⟩
  intro f
  exact (Form.exact.read_write Form.canonicalJson_toJson f).mpr trivial

end Sexp
