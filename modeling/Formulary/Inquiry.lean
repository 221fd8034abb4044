import Formulary.Issue

/-! # Inquiries

An inquiry is a formula as it is asked about from outside: the operator is given by its symbol. The
catalog turns the symbol into the operator; no symbol and the empty one are no operator.
-/

namespace Formulary

structure Inquiry where
  left? : Option Text
  symbol? : Option Text
  right? : Option Text
deriving DecidableEq, Repr

/-- No operator of the catalog has the symbol. -/
structure UnknownOperator where
  symbol : Text
deriving DecidableEq, Repr

/-- An issue with the value that it is about. -/
structure InputIssue where
  issue : Issue
  input : Json

/-- An issue of a request's body as plain data. -/
def InputIssue.toJson (i : InputIssue) : Json :=
  .object [("type", .str i.issue.cause.code),
    ("loc", .list (.str "body" :: i.issue.path.map PathStep.toJson)),
    ("msg", .str i.issue.cause.message), ("input", i.input)]

namespace Inquiry

/-- The formula of an inquiry. -/
def resolve (c : Catalog) (q : Inquiry) : Except UnknownOperator Formula :=
  match q.symbol?.filter (!·.isEmpty) with
  | none => .ok ⟨q.left?, none, q.right?⟩
  | some symbol =>
    match c.operator? symbol with
    | none => .error ⟨symbol⟩
    | some op => .ok ⟨q.left?, some op, q.right?⟩

/-- The names of the fields in the order in which they are looked at. -/
def fieldNames : List Text := ["left_side", "operator", "right_side"]

/-- The issue of a field that is neither a text nor null. -/
def fieldIssue? (fields : List (Text × Json)) (name : Text) : Option InputIssue :=
  match Json.field? fields name with
  | none => none
  | some .null => none
  | some (.str _) => none
  | some v => some ⟨⟨[.field name], .notString⟩, v⟩

/-- The text of a field. -/
def fieldText? (fields : List (Text × Json)) (name : Text) : Option Text :=
  match Json.field? fields name with
  | some (.str s) => some s
  | _ => none

/-- The inquiry of a body, which may be absent, or one issue for each field at fault. -/
def ofBody : Option Json → Except (List InputIssue) Inquiry
  | none => .error [⟨⟨[], .absent⟩, .null⟩]
  | some (.object fields) =>
    match fieldNames.filterMap (fieldIssue? fields) with
    | [] => .ok ⟨fieldText? fields "left_side", fieldText? fields "operator",
        fieldText? fields "right_side"⟩
    | issues => .error issues
  | some v => .error [⟨⟨[], .notFields⟩, v⟩]

end Inquiry

end Formulary
