import Mathlib.Data.List.Forall2
import LineCalc.Proofs.Expr.Parsing
import LineCalc.Proofs.Expr.Shape
import LineCalc.Proofs.Value.Legible

/-! What a dump tells of an expression.

A dump has a line for each node, a node before its sides. What a line shows tells the node, and as every
operator has two sides, a row of nodes in this order is the listing of one expression only. So a dump belongs
to one expression, whatever its indent. -/

namespace LineCalc

def Node.label : Node → Except Fault String
  | literal value => value.text.map fun text => "Literal(" ++ text ++ ")"
  | var name value => value.text.map fun text => "Variable(" ++ name ++ " = " ++ text ++ ")"
  | operator op => .ok ("BinaryOp(" ++ op.symbol ++ ")")
  | foreign kind => .error (.unknownNode kind)

def Node.Named : Node → Prop
  | var name _ => Text.IsIdentifier name.toList
  | _ => True

def Expr.preorder (depth : Nat) : Expr → List (Nat × Node)
  | literal value => [(depth, .literal value)]
  | var name value => [(depth, .var name value)]
  | binary op left right =>
    (depth, .operator op) :: left.preorder (depth + 1) ++ right.preorder (depth + 1)
  | foreign kind => [(depth, .foreign kind)]

def Expr.Named (e : Expr) : Prop := ∀ cell ∈ e.cells, Text.IsIdentifier cell.1.toList

structure Node.ShownIn (indent : Int) (entry : Nat × Node) (line : List Char) : Prop where
  padded : line.takeWhile (· = ' ') = List.replicate (2 * (indent + entry.1).toNat) ' '
  labelled : entry.2.label = .ok (String.ofList (line.dropWhile (· = ' ')))

namespace Value

variable {value : Value} {text : String}

theorem newline_not_mem_text (shown : value.text = .ok text) : '\n' ∉ text.toList := by
  have written := written_of_text shown
  generalize text.toList = cs at written
  cases written with
  | word spelled => cases spelled <;> simp
  | int n =>
      intro member
      exact absurd (Numeral.mem_text member) (by decide)
  | float n =>
      intro member
      exact absurd (Numeral.mem_text member) (by decide)

end Value

namespace Node

variable {node other : Node} {label : String}

/-- A label starts with a letter, by which it tells the kind of its node. -/
inductive Labelled : Node → List Char → Prop
  | literal {value : Value} {text : String} (shown : value.text = .ok text) :
      Labelled (.literal value) ('L' :: ("iteral(".toList ++ (text.toList ++ [')'])))
  | var {name : String} {value : Value} {text : String} (shown : value.text = .ok text) :
      Labelled (.var name value)
        ('V' :: ("ariable(".toList ++ (name.toList ++ (" = ".toList ++ (text.toList ++ [')'])))))
  | operator (op : Operator) :
      Labelled (.operator op) ('B' :: ("inaryOp(".toList ++ (op.symbol.toList ++ [')'])))

theorem labelled_of_label (shown : node.label = .ok label) : node.Labelled label.toList := by
  cases node with
  | literal value =>
      obtain ⟨text, written, rfl⟩ := ok_of_map_eq_ok shown
      simpa using Labelled.literal written
  | var name value =>
      obtain ⟨text, written, rfl⟩ := ok_of_map_eq_ok shown
      simpa using @Labelled.var name value text written
  | operator op =>
      cases shown
      simpa using Labelled.operator op
  | foreign kind => cases shown

theorem label_ne_blank (shown : node.label = .ok label) : Text.Stops (· = ' ') label.toList := by
  have labelled := labelled_of_label shown
  generalize label.toList = cs at labelled
  cases labelled <;> exact Text.stops_cons.mpr (by decide)

theorem newline_not_mem_label (named : node.Named) (shown : node.label = .ok label) :
    '\n' ∉ label.toList := by
  have labelled := labelled_of_label shown
  generalize label.toList = cs at labelled
  cases labelled with
  | literal written => simp [Value.newline_not_mem_text written]
  | @var name value text written =>
      have unbroken : '\n' ∉ name.toList := by
        obtain ⟨c, rest, same, letter, others⟩ := named
        rw [same, List.mem_cons, not_or]
        constructor
        · rintro rfl
          cases letter
        · intro member
          cases others _ member
      simp [Value.newline_not_mem_text written, unbroken]
  | operator op => cases op <;> simp [Operator.symbol]

theorem isAlphanum_of_mem {name : List Char} (identifier : Text.IsIdentifier name) :
    ∀ c ∈ name, c.isAlphanum = true := by
  obtain ⟨c, rest, rfl, letter, others⟩ := identifier
  rw [List.forall_mem_cons]
  exact ⟨by simp [Char.isAlphanum, letter], others⟩

theorem Labelled.unique {cs ds : List Char} (labelled : node.Labelled cs) (labelled' : other.Labelled ds)
    (named : node.Named) (named' : other.Named) (same : cs = ds) : node = other := by
  cases labelled with
  | literal shown =>
      cases labelled' with
      | literal shown' =>
          have text := List.append_cancel_right (List.append_cancel_left (List.cons.inj same).2)
          rw [String.toList_inj.mp text] at shown
          rw [Value.eq_of_text_eq shown shown']
      | _ => exact absurd (List.cons.inj same).1 (by decide)
  | var shown =>
      cases labelled' with
      | var shown' =>
          have behind := List.append_cancel_left (List.cons.inj same).2
          have stops (text : List Char) : Text.Stops Char.isAlphanum (" = ".toList ++ text) :=
            Text.stops_cons.mpr (by decide)
          -- The blank behind the name ends it, as there is none in an identifier.
          have name := congrArg (List.takeWhile Char.isAlphanum) behind
          rw [Text.takeWhile_append (isAlphanum_of_mem named) (stops _),
            Text.takeWhile_append (isAlphanum_of_mem named') (stops _)] at name
          rw [name] at behind
          have text := List.append_cancel_right
            (List.append_cancel_left (List.append_cancel_left behind))
          rw [String.toList_inj.mp text] at shown
          rw [String.toList_inj.mp name, Value.eq_of_text_eq shown shown']
      | _ => exact absurd (List.cons.inj same).1 (by decide)
  | operator op =>
      cases labelled' with
      | operator op' =>
          have symbol := List.append_cancel_right (List.append_cancel_left (List.cons.inj same).2)
          rw [Operator.symbol_injective (String.toList_inj.mp symbol)]
      | _ => exact absurd (List.cons.inj same).1 (by decide)

end Node

namespace Expr

variable {e f : Expr}

/-- A row of nodes starts with the listing of one expression only. -/
theorem eq_of_preorder_eq {depth depth' : Nat} {rest rest' : List Node}
    (same : (e.preorder depth).map Prod.snd ++ rest = (f.preorder depth').map Prod.snd ++ rest') :
    e = f ∧ rest = rest' := by
  induction e generalizing f depth depth' rest rest' with
  | literal value => cases f <;> simp_all [preorder]
  | var name value => cases f <;> simp_all [preorder]
  | foreign kind => cases f <;> simp_all [preorder]
  | binary op left right ihLeft ihRight =>
      cases f with
      | binary op' left' right' =>
          simp only [preorder, List.map_append, List.map_cons, List.cons_append, List.append_assoc,
            List.cons.injEq, Node.operator.injEq] at same
          obtain ⟨rfl, sides⟩ := same
          obtain ⟨rfl, second⟩ := ihLeft sides
          obtain ⟨rfl, behind⟩ := ihRight second
          exact ⟨rfl, behind⟩
      | _ => simp [preorder] at same

theorem named_of_mem_preorder (named : e.Named) {depth : Nat} {entry : Nat × Node}
    (member : entry ∈ e.preorder depth) : entry.2.Named := by
  induction e generalizing depth with
  | literal value =>
      rw [List.mem_singleton.mp member]
      trivial
  | var name value =>
      rw [List.mem_singleton.mp member]
      exact named (name, value) (List.mem_singleton.mpr rfl)
  | foreign kind =>
      rw [List.mem_singleton.mp member]
      trivial
  | binary op left right ihLeft ihRight =>
      simp only [preorder, List.cons_append, List.mem_cons, List.mem_append] at member
      rcases member with rfl | member | member
      · trivial
      · exact ihLeft (fun cell within => named cell (List.mem_append_left _ within)) member
      · exact ihRight (fun cell within => named cell (List.mem_append_right _ within)) member

def LineOf (indent : Int) (entry : Nat × Node) (line : String) : Prop :=
  ∃ label, entry.2.label = .ok label ∧ line = padding (indent + entry.1) ++ label

theorem lineOf_dumpLines {levels depth : Nat} {indent : Int} {lines : List String}
    (dumped : e.dumpLines levels (indent + depth) = .ok lines) :
    List.Forall₂ (LineOf indent) (e.preorder depth) lines := by
  induction levels generalizing e depth lines with
  | zero => cases dumped
  | succ levels ih =>
      cases e with
      | literal value =>
          obtain ⟨text, shown, same⟩ := exists_ok_of_bind dumped
          cases same
          exact .cons ⟨_, by rw [Node.label, shown]; rfl, rfl⟩ .nil
      | var name value =>
          obtain ⟨text, shown, same⟩ := exists_ok_of_bind dumped
          cases same
          exact .cons ⟨_, by rw [Node.label, shown]; rfl, rfl⟩ .nil
      | foreign kind => cases dumped
      | binary op left right =>
          obtain ⟨first, dumpedLeft, others⟩ := exists_ok_of_bind dumped
          obtain ⟨second, dumpedRight, same⟩ := exists_ok_of_bind others
          cases same
          have deeper : indent + depth + 1 = indent + (depth + 1 : Nat) := by
            push_cast
            ring
          rw [deeper] at dumpedLeft dumpedRight
          refine .cons ⟨_, rfl, rfl⟩ ?_
          exact List.rel_append (ih dumpedLeft) (ih dumpedRight)

section Lines

variable {indent : Int} {entry : Nat × Node} {entries entries' : List (Nat × Node)}

theorem LineOf.shownIn {line : String} (row : LineOf indent entry line) :
    Node.ShownIn indent entry line.toList := by
  obtain ⟨label, shown, rfl⟩ := row
  have blanks : ∀ c ∈ (padding (indent + entry.1)).toList, decide (c = ' ') = true := by
    simp [padding]
  have stop := Node.label_ne_blank shown
  rw [String.toList_append]
  refine ⟨?_, ?_⟩
  · rw [Text.takeWhile_append blanks stop, padding, String.toList_ofList]
  · rw [Text.dropWhile_append blanks stop, String.ofList_toList, shown]

theorem LineOf.unbroken {line : String} (row : LineOf indent entry line) (named : entry.2.Named) :
    '\n' ∉ line.toList := by
  obtain ⟨label, shown, rfl⟩ := row
  have label := Node.newline_not_mem_label named shown
  simpa [padding] using label

theorem forall_unbroken {lines : List String} (rows : List.Forall₂ (LineOf indent) entries lines)
    (named : ∀ entry ∈ entries, entry.2.Named) : ∀ line ∈ lines.map String.toList, '\n' ∉ line := by
  induction rows with
  | nil => simp
  | cons row _ ih =>
      rw [List.forall_mem_cons] at named
      rw [List.map_cons, List.forall_mem_cons]
      exact ⟨row.unbroken named.1, ih named.2⟩

theorem nodes_eq_of_shownIn {lines : List (List Char)}
    (rows : List.Forall₂ (Node.ShownIn indent) entries lines)
    (rows' : List.Forall₂ (Node.ShownIn indent) entries' lines)
    (named : ∀ entry ∈ entries, entry.2.Named) (named' : ∀ entry ∈ entries', entry.2.Named) :
    entries.map Prod.snd = entries'.map Prod.snd := by
  induction rows generalizing entries' with
  | nil =>
      cases rows'
      rfl
  | cons row _ ih =>
      cases rows' with
      | cons row' rows' =>
          rw [List.forall_mem_cons] at named named'
          have node := (Node.labelled_of_label row.labelled).unique (Node.labelled_of_label row'.labelled)
            named.1 named'.1 rfl
          rw [List.map_cons, List.map_cons, node, ih rows' named.2 named'.2]

theorem shownIn_of_dump {stack : Stack} {text : String} (named : e.Named)
    (dumped : e.dump stack indent = .ok text) :
    List.Forall₂ (Node.ShownIn indent) (e.preorder 0) (text.toList.splitOn '\n') := by
  obtain ⟨lines, dumpedLines, rfl⟩ := ok_of_map_eq_ok dumped
  have rows : List.Forall₂ (LineOf indent) (e.preorder 0) lines :=
    lineOf_dumpLines (by rwa [Nat.cast_zero, add_zero])
  have nonempty : lines.map String.toList ≠ [] := by
    intro empty
    have count := rows.length_eq
    rw [List.map_eq_nil_iff.mp empty] at count
    cases e <;> simp [preorder] at count
  have unbroken := forall_unbroken rows fun entry member => named_of_mem_preorder named member
  have cut : (("\n".intercalate lines).toList).splitOn '\n' = lines.map String.toList := by
    rw [String.toList_intercalate]
    exact List.splitOn_intercalate '\n' unbroken nonempty
  rw [cut, List.forall₂_map_right_iff]
  exact rows.imp fun _ _ row => row.shownIn

end Lines

theorem exists_dumpLines_iff {levels : Nat} {indent : Int} :
    (∃ lines, e.dumpLines levels indent = .ok lines) ↔
      e.isPlain = true ∧ e.height ≤ levels ∧ ∀ value ∈ e.leaves, ¬ value.IsLong := by
  constructor
  · rintro ⟨lines, dumped⟩
    have shape : e.isPlain = true ∧ e.height ≤ levels := by
      induction levels generalizing e indent lines with
      | zero => cases dumped
      | succ levels ih =>
          cases e with
          | literal value => exact ⟨rfl, by simp [height]⟩
          | var name value => exact ⟨rfl, by simp [height]⟩
          | foreign kind => cases dumped
          | binary op left right =>
              obtain ⟨first, dumpedLeft, others⟩ := exists_ok_of_bind dumped
              obtain ⟨second, dumpedRight, _⟩ := exists_ok_of_bind others
              obtain ⟨plainLeft, lowLeft⟩ := ih _ dumpedLeft
              obtain ⟨plainRight, lowRight⟩ := ih _ dumpedRight
              exact ⟨by simp [isPlain, plainLeft, plainRight], by simp [height, lowLeft, lowRight]⟩
    refine ⟨shape.1, shape.2, ?_⟩
    have result := dumped_dumpLines shape.1 shape.2 indent
    rw [dumped] at result
    cases result with
    | shown _ short => exact short
  · rintro ⟨plain, low, short⟩
    have result := dumped_dumpLines plain low indent
    generalize e.dumpLines levels indent = outcome at result
    cases result with
    | shown lines _ => exact ⟨lines, rfl⟩
    | tooLong member long => exact absurd long (short _ member)

/-- A dump tells the expression. There is one unless the expression is too high, or has a value without a
text. Its lines show the nodes with their depths, each node before its sides, and no other expression has the
same dump: the operators, the names and the values are the same, doubles to the bit. -/
theorem dump_determines (stack : Stack) (indent : Int) (e : Expr) (named : e.Named) :
    ((∃ text, e.dump stack indent = .ok text) ↔
      e.isPlain = true ∧ e.height ≤ stack.leafRoom ∧ ∀ value ∈ e.leaves, ¬ value.IsLong) ∧
    ∀ text, e.dump stack indent = .ok text →
      (∀ (other : Stack) (f : Expr), f.Named → f.dump other indent = .ok text → f = e) ∧
      List.Forall₂ (Node.ShownIn indent) (e.preorder 0) (text.toList.splitOn '\n') := by
  constructor
  · have lines : (∃ lines, e.dumpLines stack.leafRoom indent = .ok lines) ↔ _ := exists_dumpLines_iff
    rw [← lines, dump]
    cases e.dumpLines stack.leafRoom indent <;> simp [Except.map]
  · intro text dumped
    have rows := shownIn_of_dump named dumped
    refine ⟨fun other f namedOther dumpedOther => ?_, rows⟩
    have nodes := nodes_eq_of_shownIn (shownIn_of_dump namedOther dumpedOther) rows
      (fun entry member => named_of_mem_preorder namedOther member)
      (fun entry member => named_of_mem_preorder named member)
    exact (eq_of_preorder_eq (congrArg (· ++ []) nodes)).1

/-- The zero below all positive doubles and above all negative ones, with the sign of the latter. -/
def negativeZero : Value := .number (.float (Float.ofBits 0x8000000000000000))

/-- The dump of `x <- true` with a negative zero in its cell, indented by one level: it is the dump of no
expression with another zero or another truth value. -/
theorem dump_determines_zero :
    ∃ e text, e = binary .assign (var "x" negativeZero) (literal (.bool true)) ∧
      text = "  BinaryOp(<-)\n    Variable(x = -0.0)\n    Literal(true)" ∧
      e.dump .empty 1 = .ok text ∧
      (∀ (other : Stack) (f : Expr), f.Named → f.dump other 1 = .ok text → f = e) ∧
      List.Forall₂ (Node.ShownIn 1) (e.preorder 0) (text.toList.splitOn '\n') := by
  have named : (binary .assign (var "x" negativeZero) (literal (.bool true))).Named := by
    intro cell member
    rw [List.mem_singleton.mp member]
    exact ⟨'x', [], rfl, by decide, by simp⟩
  have dumped : (binary .assign (var "x" negativeZero) (literal (.bool true))).dump .empty 1 =
      .ok "  BinaryOp(<-)\n    Variable(x = -0.0)\n    Literal(true)" := by decide +kernel
  exact ⟨_, _, rfl, rfl, dumped, (dump_determines .empty 1 _ named).2 _ dumped⟩

end Expr

end LineCalc
