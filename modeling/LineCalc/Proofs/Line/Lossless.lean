import LineCalc.Proofs.Json.Rendered
import LineCalc.Proofs.Line.Agreement

/-! Nothing of a report is lost in its JSON text.

The document of a report shows its line, its value, its error, its tokens and its tree: strings and truth
values as they are, numbers as numbers, and an infinity or a NaN by its name. If no integer in the report is
too long to be written, its text is ASCII at every indent, and the decoder finds the document in it again. -/

namespace LineCalc

inductive Value.ShownAs : Value → Json → Prop
  | bool (b : Bool) : ShownAs (.bool b) (.bool b)
  | int (n : Int) : ShownAs (.number (.int n)) (.number (.int n))
  | finite {x : Float} : (Binary64.ofFloat x).isFinite = true →
    ShownAs (.number (.float x)) (.number (.float x))
  | infinite {x : Float} {negative : Bool} : Binary64.ofFloat x = .infinite negative →
    ShownAs (.number (.float x)) (.string (if negative then "-inf" else "inf"))
  | nan {x : Float} : Binary64.ofFloat x = .nan → ShownAs (.number (.float x)) (.string "nan")

inductive Expr.ShownAs : Expr → Json → Prop
  | literal {value : Value} {shown : Json} : value.ShownAs shown →
    ShownAs (.literal value) (.object [("literal", shown)])
  | var {name : String} {value : Value} {shown : Json} : value.ShownAs shown →
    ShownAs (.var name value) (.object [("var", .string name), ("value", shown)])
  | binary {op : Operator} {left right : Expr} {first second : Json} : ShownAs left first →
    ShownAs right second → ShownAs (.binary op left right) (.object [(op.symbol, .array [first, second])])

def Json.get? : Json → String → Option Json
  | object members, key => members.lookup key
  | _, _ => none

structure Token.ShownAs (t : Token) (shown : Json) : Prop where
  text : shown.get? "text" = some (.string t.text)
  kind : shown.get? "kind" = some (.string t.kind.name)
  priority : shown.get? "priority" = some (.number (.int t.priority))
  position : shown.get? "position" = some (.number (.int t.position))

structure Failure.ShownAs (failure : Failure) (shown : Json) : Prop where
  kind : shown.get? "kind" = some (.string failure.kind.name)
  message : shown.get? "message" = some (.string failure.message)
  position : shown.get? "position" = failure.position.map fun position => .number (.int position)
  snippet : shown.get? "snippet" = failure.snippet.map .string

structure Report.ShownAs (report : Report) (document : Json) : Prop where
  line : document.get? "line" = some (.string report.line)
  success : document.get? "success" = some (.bool report.success)
  value : ∀ value ∈ report.value, ∃ shown, document.get? "value" = some shown ∧ value.ShownAs shown
  error : ∀ failure ∈ report.error, ∃ shown, document.get? "error" = some shown ∧ failure.ShownAs shown
  tokens : report.tokens ≠ [] → ∃ shown, document.get? "tokens" = some (.array shown) ∧
    List.Forall₂ Token.ShownAs report.tokens shown
  tree : ∀ tree ∈ report.tree, ∃ shown, document.get? "tree" = some shown ∧ tree.ShownAs shown

def Report.values (report : Report) : List Value :=
  report.value.toList ++
    (report.error.bind Failure.position).toList.map (fun position => .number (.int position)) ++
    report.tokens.flatMap (fun t => [.number (.int t.priority), .number (.int t.position)]) ++
    report.tree.toList.flatMap Expr.leaves

theorem Value.shownAs_ofValue (value : Value) : value.ShownAs (.ofValue value) := by
  cases value with
  | bool b => exact .bool b
  | number n =>
      cases n with
      | int n => exact .int n
      | float x =>
          cases reading : Binary64.ofFloat x with
          | nan =>
              simp only [Json.ofValue, reading]
              exact .nan reading
          | infinite negative =>
              simp only [Json.ofValue, reading]
              exact .infinite reading
          | finite negative mantissa exponent =>
              simp only [Json.ofValue, reading]
              exact .finite (by rw [reading]; rfl)

variable {value : Value} {e : Expr} {shown document : Json} {n : Number} {report : Report}
  {stack : Stack}

theorem Value.IsLong.exists_int (long : value.IsLong) : ∃ n, value = .number (.int n) := by
  cases value with
  | bool b => exact long.elim
  | number n =>
      cases n with
      | int n => exact ⟨n, rfl⟩
      | float x => exact long.elim

theorem Value.ShownAs.regular (shows : value.ShownAs shown) : shown.Regular := by
  cases shows with
  | bool b => exact .bool b
  | int n => exact .number rfl
  | finite finite => exact .number finite
  | infinite _ => exact .string _
  | nan _ => exact .string _

theorem Value.ShownAs.nested (shows : value.ShownAs shown) (depth : Nat) : shown.Nested depth := by
  cases shows with
  | bool b => exact .bool b
  | int n => exact .number _
  | finite _ => exact .number _
  | infinite _ => exact .string _
  | nan _ => exact .string _

theorem Value.ShownAs.holds_iff (shows : value.ShownAs shown) :
    shown.Holds n ↔ .number n = value ∧ n.exact.isFinite = true := by
  cases shows with
  | bool b => simp
  | int m =>
      simp only [Json.holds_number, Value.number.injEq]
      exact ⟨fun same => ⟨same, by rw [same]; rfl⟩, And.left⟩
  | @finite x finite =>
      simp only [Json.holds_number, Value.number.injEq]
      exact ⟨fun same => ⟨same, by rw [same]; exact finite⟩, And.left⟩
  | infinite reading =>
      simp only [Json.not_holds_string, Value.number.injEq, false_iff, not_and, Bool.not_eq_true]
      intro same
      rw [same, Number.exact, reading]
      rfl
  | nan reading =>
      simp only [Json.not_holds_string, Value.number.injEq, false_iff, not_and, Bool.not_eq_true]
      intro same
      rw [same, Number.exact, reading]
      rfl

theorem Expr.shownAs_of_toJsonWithin {levels : Nat} (written : e.toJsonWithin levels = .ok shown) :
    e.ShownAs shown := by
  induction levels generalizing e shown with
  | zero => cases written
  | succ levels ih =>
      cases e with
      | foreign kind => cases written
      | literal value =>
          cases written
          exact .literal value.shownAs_ofValue
      | var name value =>
          cases written
          exact .var value.shownAs_ofValue
      | binary op left right =>
          obtain ⟨first, shownLeft, others⟩ := exists_ok_of_bind written
          obtain ⟨second, shownRight, same⟩ := exists_ok_of_bind others
          cases same
          exact .binary (ih shownLeft) (ih shownRight)

theorem Expr.ShownAs.regular (shows : e.ShownAs shown) : shown.Regular := by
  induction shows with
  | literal shows => exact .object (by simp) (by simpa using shows.regular)
  | var shows => exact .object (by simp) (by simpa using ⟨.string _, shows.regular⟩)
  | binary _ _ ihLeft ihRight =>
      exact .object (by simp) (by simpa using .array (by simpa using ⟨ihLeft, ihRight⟩))

theorem Expr.ShownAs.nested (shows : e.ShownAs shown) {depth : Nat} (low : 2 * e.height ≤ depth + 1) :
    shown.Nested depth := by
  induction shows generalizing depth with
  | literal shows =>
      obtain ⟨less, rfl⟩ : ∃ n, depth = n + 1 := ⟨depth - 1, by simp only [height] at low; omega⟩
      exact .object (by simpa using shows.nested less)
  | var shows =>
      obtain ⟨less, rfl⟩ : ∃ n, depth = n + 1 := ⟨depth - 1, by simp only [height] at low; omega⟩
      exact .object (by simpa using ⟨.string _, shows.nested less⟩)
  | @binary op left right first second _ _ ihLeft ihRight =>
      rw [height] at low
      have positive := Phrase.one_le_height left
      obtain ⟨less, rfl⟩ : ∃ n, depth = n + 1 + 1 := ⟨depth - 2, by omega⟩
      have array : (Json.array [first, second]).Nested (less + 1) :=
        .array (by simpa using ⟨ihLeft (by omega), ihRight (by omega)⟩)
      exact .object (by simpa using array)

theorem Expr.ShownAs.holds_iff (shows : e.ShownAs shown) :
    shown.Holds n ↔ .number n ∈ e.leaves ∧ n.exact.isFinite = true := by
  induction shows with
  | literal shows => simp [leaves, shows.holds_iff]
  | var shows => simp [leaves, shows.holds_iff]
  | binary _ _ ihLeft ihRight => simp [leaves, ihLeft, ihRight, or_and_right, exists_or]

theorem Json.regular_ofInt (n : Int) : (Json.ofInt n).Regular := .number rfl

theorem Token.shownAs_toJson (t : Token) : t.ShownAs t.toJson := ⟨rfl, rfl, rfl, rfl⟩

theorem Token.regular_toJson (t : Token) : t.toJson.Regular :=
  .object (by simp) (by simpa using ⟨.string _, .string _, Json.regular_ofInt _, Json.regular_ofInt _⟩)

theorem Token.nested_toJson (t : Token) : t.toJson.Nested 1 :=
  .object (by simpa using ⟨.string _, .string _, .number _, .number _⟩)

theorem Token.holds_toJson (t : Token) :
    t.toJson.Holds n ↔ .number n ∈ [Value.number (.int t.priority), .number (.int t.position)] ∧
      n.exact.isFinite = true := by
  rw [and_iff_left_of_imp]
  · simp [toJson, Json.ofInt]
  · intro member
    simp only [List.mem_cons, Value.number.injEq, List.not_mem_nil, or_false] at member
    rcases member with same | same <;> rw [same] <;> rfl

theorem Failure.shownAs_toJson (failure : Failure) : failure.ShownAs failure.toJson := by
  rcases failure with ⟨kind, message, position, snippet⟩
  cases position <;> cases snippet <;> exact ⟨rfl, rfl, rfl, rfl⟩

theorem Failure.regular_toJson (failure : Failure) : failure.toJson.Regular := by
  rcases failure with ⟨kind, message, position, snippet⟩
  cases position <;> cases snippet <;>
    exact .object (by simp) (by simp [Json.regular_ofInt, Json.Regular.string])

theorem Failure.nested_toJson (failure : Failure) : failure.toJson.Nested 1 := by
  rcases failure with ⟨kind, message, position, snippet⟩
  cases position <;> cases snippet <;>
    exact .object (by simp [Json.ofInt, Json.Nested.number, Json.Nested.string])

theorem Failure.holds_toJson (failure : Failure) :
    failure.toJson.Holds n ↔
      .number n ∈ failure.position.toList.map (fun position => Value.number (.int position)) ∧
        n.exact.isFinite = true := by
  rw [and_iff_left_of_imp]
  · rcases failure with ⟨kind, message, position, snippet⟩
    cases position <;> cases snippet <;> simp [toJson, Json.ofInt]
  · intro member
    obtain ⟨position, _, same⟩ := List.mem_map.mp member
    cases same
    rfl

namespace Report

inductive TreeMembers (report : Report) : List (String × Json) → Prop
  | none : report.tree = none → TreeMembers report []
  | some {tree : Expr} {shown : Json} : report.tree = some tree → tree.ShownAs shown →
    TreeMembers report [("tree", shown)]

inductive ResultMembers (report : Report) : List (String × Json) → Prop
  | none : report.success = false → ResultMembers report []
  | some {text : String} : report.success = true →
    ResultMembers report [("value", (report.value.map Json.ofValue).getD .null), ("display", .string text)]

def errorMembers (report : Report) : List (String × Json) :=
  (report.error.map fun failure => ("error", failure.toJson)).toList

def tokenMembers (report : Report) : List (String × Json) :=
  if report.tokens.isEmpty then [] else [("tokens", .array (report.tokens.map Token.toJson))]

def members (report : Report) (result tree : List (String × Json)) : List (String × Json) :=
  [("line", .string report.line), ("success", .bool report.success)] ++ result ++ report.errorMembers ++
    report.tokenMembers ++ tree

theorem exists_members (written : report.toJson stack = .ok document) :
    ∃ result tree, report.ResultMembers result ∧ report.TreeMembers tree ∧
      document = .object (report.members result tree) := by
  unfold toJson at written
  dsimp only at written
  split at written
  case isTrue success =>
      obtain ⟨text, _, others⟩ := exists_ok_of_bind written
      rw [pure_bind] at others
      split at others
      case h_1 e built =>
          obtain ⟨shown, shows, same⟩ := exists_ok_of_bind others
          cases same
          exact ⟨_, _, .some success, .some built (Expr.shownAs_of_toJsonWithin shows), rfl⟩
      case h_2 absent =>
          cases others
          exact ⟨_, _, .some success, .none absent, rfl⟩
  case isFalse failed =>
      have failed : report.success = false := by simpa using failed
      rw [pure_bind] at written
      split at written
      case h_1 e built =>
          obtain ⟨shown, shows, same⟩ := exists_ok_of_bind written
          cases same
          exact ⟨_, _, .none failed, .some built (Expr.shownAs_of_toJsonWithin shows), rfl⟩
      case h_2 absent =>
          cases written
          exact ⟨_, _, .none failed, .none absent, rfl⟩

variable {result tree : List (String × Json)}

theorem nodup_keys (results : report.ResultMembers result) (trees : report.TreeMembers tree) :
    ((report.members result tree).map Prod.fst).Nodup := by
  have resultKeys : (result.map Prod.fst).Sublist ["value", "display"] := by
    cases results <;> simp
  have errorKeys : (report.errorMembers.map Prod.fst).Sublist ["error"] := by
    unfold errorMembers
    cases report.error <;> simp
  have tokenKeys : (report.tokenMembers.map Prod.fst).Sublist ["tokens"] := by
    unfold tokenMembers
    split <;> simp
  have treeKeys : (tree.map Prod.fst).Sublist ["tree"] := by
    cases trees <;> simp
  have all := ((((List.Sublist.refl ["line", "success"]).append resultKeys).append errorKeys).append
    tokenKeys).append treeKeys
  simp only [members, List.map_append]
  exact all.nodup (by decide)

theorem regular_of_members (results : report.ResultMembers result) (trees : report.TreeMembers tree) :
    (Json.object (report.members result tree)).Regular := by
  have resultMembers : ∀ member ∈ result, member.2.Regular := by
    cases results with
    | none _ => simp
    | some _ =>
        have value : ((report.value.map Json.ofValue).getD .null).Regular := by
          cases report.value with
          | none => exact .null
          | some value => exact value.shownAs_ofValue.regular
        simpa using ⟨value, .string _⟩
  have errorMembers : ∀ member ∈ report.errorMembers, member.2.Regular := by
    unfold Report.errorMembers
    cases report.error with
    | none => simp
    | some failure => simpa using failure.regular_toJson
  have tokenMembers : ∀ member ∈ report.tokenMembers, member.2.Regular := by
    unfold Report.tokenMembers
    split
    · simp
    · simpa using .array (by simpa using fun t _ => t.regular_toJson)
  have treeMembers : ∀ member ∈ tree, member.2.Regular := by
    cases trees with
    | none _ => simp
    | some _ shown => simpa using shown.regular
  refine .object (nodup_keys results trees) ?_
  simp only [members, List.forall_mem_append, List.forall_mem_cons]
  exact ⟨⟨⟨⟨⟨.string _, .bool _, by simp⟩, resultMembers⟩, errorMembers⟩, tokenMembers⟩, treeMembers⟩

/-- The tokens take three levels of a document, and a tree two for each of its own. -/
theorem nested_of_members (results : report.ResultMembers result) (trees : report.TreeMembers tree)
    {depth : Nat} (room : 3 ≤ depth) (low : ∀ tree ∈ report.tree, 2 * tree.height ≤ depth) :
    (Json.object (report.members result tree)).Nested depth := by
  obtain ⟨less, rfl⟩ : ∃ n, depth = n + 1 := ⟨depth - 1, by omega⟩
  have resultMembers : ∀ member ∈ result, member.2.Nested less := by
    cases results with
    | none _ => simp
    | some _ =>
        have value : ((report.value.map Json.ofValue).getD .null).Nested less := by
          cases report.value with
          | none => exact .null
          | some value => exact value.shownAs_ofValue.nested less
        simpa using ⟨value, .string _⟩
  have errorMembers : ∀ member ∈ report.errorMembers, member.2.Nested less := by
    unfold Report.errorMembers
    cases report.error with
    | none => simp
    | some failure => simpa using failure.nested_toJson.mono (by omega)
  have tokenMembers : ∀ member ∈ report.tokenMembers, member.2.Nested less := by
    unfold Report.tokenMembers
    split
    · simp
    · have array : (Json.array (report.tokens.map Token.toJson)).Nested 2 :=
        .array (by simpa using fun t _ => t.nested_toJson)
      simpa using array.mono (by omega)
  have treeMembers : ∀ member ∈ tree, member.2.Nested less := by
    cases trees with
    | none _ => simp
    | some built shown => simpa using shown.nested (low _ built)
  refine .object ?_
  simp only [members, List.forall_mem_append, List.forall_mem_cons]
  exact ⟨⟨⟨⟨⟨.string _, .bool _, by simp⟩, resultMembers⟩, errorMembers⟩, tokenMembers⟩, treeMembers⟩

theorem holds_members_iff (results : report.ResultMembers result) (trees : report.TreeMembers tree)
    (paired : report.success = report.value.isSome) :
    (Json.object (report.members result tree)).Holds n ↔
      .number n ∈ report.values ∧ n.exact.isFinite = true := by
  have resultMembers : (∃ member ∈ result, member.2.Holds n) ↔
      .number n ∈ report.value.toList ∧ n.exact.isFinite = true := by
    cases results with
    | none failed =>
        have absent : report.value = Option.none := by simpa [failed] using paired
        simp [absent]
    | some success =>
        rw [success] at paired
        obtain ⟨value, present⟩ := Option.isSome_iff_exists.mp paired.symm
        simp [present, value.shownAs_ofValue.holds_iff]
  have errorMembers : (∃ member ∈ report.errorMembers, member.2.Holds n) ↔
      .number n ∈ (report.error.bind Failure.position).toList.map
        (fun position => Value.number (.int position)) ∧ n.exact.isFinite = true := by
    unfold Report.errorMembers
    cases report.error with
    | none => simp
    | some failure => simpa using failure.holds_toJson
  have tokenMembers : (∃ member ∈ report.tokenMembers, member.2.Holds n) ↔
      .number n ∈ report.tokens.flatMap
        (fun t => [Value.number (.int t.priority), .number (.int t.position)]) ∧
        n.exact.isFinite = true := by
    have listed : (∃ member ∈ report.tokenMembers, member.2.Holds n) ↔
        ∃ t ∈ report.tokens, t.toJson.Holds n := by
      unfold Report.tokenMembers
      cases report.tokens <;> simp
    simp only [listed, Token.holds_toJson, List.mem_flatMap, ← and_assoc, exists_and_right]
  have treeMembers : (∃ member ∈ tree, member.2.Holds n) ↔
      .number n ∈ report.tree.toList.flatMap Expr.leaves ∧ n.exact.isFinite = true := by
    cases trees with
    | none absent => simp [absent]
    | some present shown => simp [present, shown.holds_iff]
  simp only [Json.holds_object, members, List.mem_append, or_and_right, exists_or, resultMembers,
    errorMembers, tokenMembers, treeMembers, values]
  simp

theorem shownAs_of_members (results : report.ResultMembers result) (trees : report.TreeMembers tree)
    (paired : report.success = report.value.isSome) :
    report.ShownAs (.object (report.members result tree)) := by
  have get {key : String} {shown : Json} (member : (key, shown) ∈ report.members result tree) :
      (Json.object (report.members result tree)).get? key = some shown :=
    lookup_of_mem (nodup_keys results trees) member
  refine ⟨get (by simp [members]), get (by simp [members]), ?_, ?_, ?_, ?_⟩
  · intro value present
    refine ⟨.ofValue value, get ?_, value.shownAs_ofValue⟩
    cases results with
    | none failed => simp_all
    | some success => simp_all [members]
  · intro failure present
    exact ⟨failure.toJson, get (by simp_all [members, errorMembers]), failure.shownAs_toJson⟩
  · intro nonempty
    refine ⟨report.tokens.map Token.toJson, get (by simp_all [members, tokenMembers]), ?_⟩
    rw [List.forall₂_map_right_iff]
    exact List.forall₂_same.mpr fun t _ => t.shownAs_toJson
  · intro e present
    cases trees with
    | none absent => simp_all
    | @some other shown built shows =>
        cases Option.some.inj (built.symm.trans present)
        exact ⟨shown, get (by simp [members]), shows⟩

theorem holdsLong_iff
    (holds : ∀ n, document.Holds n ↔ .number n ∈ report.values ∧ n.exact.isFinite = true) :
    document.HoldsLong ↔ ∃ value ∈ report.values, value.IsLong := by
  constructor
  · intro ⟨n, held, long⟩
    exact ⟨.number n, ((holds n).mp held).1, long⟩
  · intro ⟨value, member, long⟩
    obtain ⟨n, rfl⟩ := long.exists_int
    exact ⟨.int n, (holds _).mpr ⟨member, rfl⟩, long⟩

end Report

/-- The JSON text of a report is there unless an integer of the report is too long to be written, wherever
it is asked for with room for the tree, which takes two calls of the writer for each level. It is ASCII, and at every indent the decoder finds the same document in it, which shows the report and has no
infinity and no NaN among its numbers. Of the doubles that are written it is assumed that `read` reads them
back. -/
theorem Line.jsonText_lossless {stack : Stack} {line : String} {report : Report}
    (ran : (Line.run stack line).outcome = .ok report) (other : Stack)
    (room : 3 ≤ other.inner.writerRoom)
    (low : ∀ tree ∈ report.tree,
      tree.height ≤ other.inner.inner.leafRoom ∧ 2 * tree.height ≤ other.inner.writerRoom)
    (read : List Char → Float)
    (reads : ∀ x, .number (.float x) ∈ report.values → (Binary64.ofFloat x).isFinite = true →
      read (Binary64.ofFloat x).text.toList = x) :
    (∃ value ∈ report.values, value.IsLong) ∧
        (∀ indent, report.jsonText other indent = .error .integerTooLong) ∨
      (∀ value ∈ report.values, ¬ value.IsLong) ∧ ∃ document, report.toJson other.inner = .ok document ∧
        report.ShownAs document ∧ (∀ n, document.Holds n → n.exact.isFinite = true) ∧
        ∀ indent, ∃ text, report.jsonText other indent = .ok text ∧ (∀ c ∈ text.toList, c.toNat < 128) ∧
          Json.decode? read text = some document := by
  have paired : report.success = report.value.isSome := by
    have outcome := outcome_run stack line
    rw [ran] at outcome
    cases outcome <;> rfl
  by_cases displayed : ∃ value ∈ report.value, value.IsLong
  · obtain ⟨value, present, long⟩ := displayed
    have member : value ∈ report.values := by simp [Report.values, Option.mem_def.mp present]
    refine .inl ⟨⟨value, member, long⟩, fun indent => ?_⟩
    rw [Report.jsonText, toJson_of_isLong ran present long _]
    rfl
  · obtain ⟨document, written, _⟩ := exists_keyed_of_run ran (fun tree built => (low tree built).1)
      fun value present long => displayed ⟨value, present, long⟩
    obtain ⟨result, tree, results, trees, rfl⟩ := Report.exists_members written
    have holds (n : Number) := Report.holds_members_iff (n := n) results trees paired
    have long := Report.holdsLong_iff holds
    have regular := Report.regular_of_members results trees
    have nested := Report.nested_of_members results trees room fun tree built => (low tree built).2
    have settles (indent : Json.Indent) := Json.settles_render regular read
      (fun x held => reads x ((holds _).mp held).1 ((holds _).mp held).2) nested (Nat.le_refl _) indent
    have rendered (indent : Json.Indent) :
        report.jsonText other indent =
          (Json.object (report.members result tree)).render other.inner.writerRoom indent := by
      rw [Report.jsonText, written]
      rfl
    by_cases tooLong : ∃ value ∈ report.values, value.IsLong
    · refine .inl ⟨tooLong, fun indent => ?_⟩
      rw [rendered]
      rcases settles indent with ⟨_, failed⟩ | ⟨short, _⟩
      · exact failed
      · exact absurd (long.mpr tooLong) short
    · refine .inr ⟨by simpa using tooLong, _, written, Report.shownAs_of_members results trees paired,
        fun n held => ((holds n).mp held).2, fun indent => ?_⟩
      rw [rendered]
      rcases settles indent with ⟨isLong, _⟩ | ⟨_, found⟩
      · exact absurd (long.mp isLong) tooLong
      · exact found

def Json.nearest (cs : List Char) : Float :=
  let (minus, size) := optional (· = '-') cs
  let whole := size.takeWhile Char.isDigit
  let behind := size.dropWhile Char.isDigit
  let places := (behind.takeWhile fun c => c.isDigit || c = '.').drop 1
  let power := (behind.dropWhile fun c => c.isDigit || c = '.').drop 1
  let (sign, digits) := optional (fun c => c = '+' || c = '-') power
  let exponent : Int := Nat.ofDigitChars 10 digits 0
  let scale := (if sign = ['-'] then -exponent else exponent) - places.length
  let x := Float.ofScientific (Nat.ofDigitChars 10 (whole ++ places) 0) (scale < 0) scale.natAbs
  if minus.isEmpty then x else -x

def tenth : Float := Float.ofBits 0x3FB999999999999A

/-- The line `x<-0.1` has a double as its value and twice in its tree, and its report is found in the text at
every indent. -/
theorem Line.jsonText_lossless_tenth :
    ∃ report document, (Line.run .empty "x<-0.1").outcome = .ok report ∧
      report.toJson Stack.empty.inner = .ok document ∧
      report.ShownAs document ∧ ∀ indent, ∃ text, report.jsonText .empty indent = .ok text ∧
        Json.decode? Json.nearest text = some document := by
  let value : Value := .number (.float tenth)
  let tokens : List Token := [⟨"x", .identifier, 999, 0⟩, ⟨"<-", .operator, 0, 1⟩,
    ⟨"0.1", .literal, 1000, 3⟩]
  let report : Report := ⟨"x<-0.1", true, some value, none, tokens,
    some (.binary .assign (.var "x" value) (.literal value))⟩
  have ran : (Line.run .empty "x<-0.1").outcome = .ok report := by decide +kernel
  have read : Json.nearest (Binary64.ofFloat tenth).text.toList = tenth := by decide +kernel
  have reads : ∀ x, .number (.float x) ∈ report.values → (Binary64.ofFloat x).isFinite = true →
      Json.nearest (Binary64.ofFloat x).text.toList = x := by
    intro x member _
    have same : x = tenth := by simpa [report, tokens, value, Report.values, Expr.leaves] using member
    rw [same, read]
  have short : ∀ v ∈ report.values, ¬ v.IsLong := by decide +kernel
  have low : ∀ tree ∈ report.tree, tree.height ≤ Stack.empty.inner.inner.leafRoom ∧
      2 * tree.height ≤ Stack.empty.inner.writerRoom := by
    rintro tree ⟨⟩
    decide
  rcases jsonText_lossless ran .empty (by decide) low Json.nearest reads with
    ⟨⟨v, member, long⟩, _⟩ | ⟨_, document, found⟩
  · exact absurd long (short v member)
  · obtain ⟨written, shown, _, texts⟩ := found
    refine ⟨report, document, ran, written, shown, fun indent => ?_⟩
    obtain ⟨text, rendered, _, decoded⟩ := texts indent
    exact ⟨text, rendered, decoded⟩

end LineCalc
