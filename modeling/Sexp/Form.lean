import Sexp.Terminal

/-! # Forms

A `Form` is an atom or a collection of forms between delimiters: a list in parentheses or a vector
in brackets.

* `Form.text` prints a form on one line, elements parted by one blank;
* `Form.terminals` writes a form out as the row of its terminals;
* `Form.kind` names what a form is;
* `Form.induct` proves a fact of a form from the same fact of its elements. -/

namespace Sexp

/-- What a source text says: an atom, or forms between delimiters. -/
inductive Form where
  | atom (a : Atom)
  | collection (d : Delimiter) (elements : List Form)

namespace Form

/-- Induction over forms: a fact of every element carries over to the collection. -/
@[elab_as_elim, induction_eliminator]
theorem induct {motive : Form → Prop} (atom : ∀ a, motive (.atom a))
    (collection : ∀ d elements, (∀ e ∈ elements, motive e) → motive (.collection d elements)) :
    ∀ f, motive f
  | .atom a => atom a
  | .collection d elements => collection d elements fun e _ => induct atom collection e
termination_by f => sizeOf f

/-! ## Equality -/

mutual

/-- Whether two forms are the same. -/
def decEq : (f g : Form) → Decidable (f = g)
  | .atom a, .atom b =>
    if h : a = b then .isTrue (by rw [h]) else .isFalse (by simpa using h)
  | .collection d es, .collection d' es' =>
    if hd : d = d' then
      match decEqList es es' with
      | .isTrue h => .isTrue (by rw [hd, h])
      | .isFalse h => .isFalse (by simp [h])
    else .isFalse (by simp [hd])
  | .atom _, .collection _ _ => .isFalse (by simp)
  | .collection _ _, .atom _ => .isFalse (by simp)

/-- Whether two rows of forms are the same. -/
def decEqList : (fs gs : List Form) → Decidable (fs = gs)
  | [], [] => .isTrue rfl
  | f :: fs, g :: gs =>
    match decEq f g, decEqList fs gs with
    | .isTrue h, .isTrue h' => .isTrue (by rw [h, h'])
    | .isFalse h, _ => .isFalse (by simp [h])
    | _, .isFalse h => .isFalse (by simp [h])
  | [], _ :: _ => .isFalse (by simp)
  | _ :: _, [] => .isFalse (by simp)

end

instance : DecidableEq Form := decEq

/-! ## Parts and kinds -/

/-- The elements of a collection; an atom has none. -/
def elements? : Form → Option (List Form)
  | .atom _ => none
  | .collection _ elements => some elements

/-- The kinds of forms that are told apart. -/
inductive Kind where
  | integer
  | float
  | boolean
  | keyword
  | string
  | symbol
  | list
  | vector
deriving DecidableEq

/-- The name of a kind. -/
def Kind.name : Kind → String
  | .integer => "integer"
  | .float => "float"
  | .boolean => "boolean"
  | .keyword => "keyword"
  | .string => "string"
  | .symbol => "symbol"
  | .list => "list"
  | .vector => "vector"

/-- The kind of a form. -/
def kind : Form → Kind
  | .atom (.numeral (.integer ..)) => .integer
  | .atom (.numeral (.decimal ..)) => .float
  | .atom (.boolean _) => .boolean
  | .atom (.keyword _) => .keyword
  | .atom (.string _) => .string
  | .atom (.symbol _) => .symbol
  | .collection .paren _ => .list
  | .collection .bracket _ => .vector

/-! ## Text and terminals -/

/-- The text of a form: its elements stand between its delimiters, parted by one blank. -/
def text : Form → String
  | .atom a => a.text
  | .collection d elements =>
    d.opening.toString ++ " ".intercalate (elements.map text) ++ d.closing.toString

/-- The terminals of a form, in the order in which it is written. -/
def terminals : Form → List Terminal
  | .atom a => [.atom a]
  | .collection d elements => .opening d :: elements.flatMap terminals ++ [.closing d]

end Form

end Sexp
