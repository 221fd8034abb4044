import Formulary.CommandLine.Check
import Formulary.CommandLine.Listing
import Formulary.Proofs.Json.ReadBack
import Formulary.Proofs.Replies
import Formulary.Proofs.RoundTrip
import Formulary.Proofs.Utf8

/-! # Printed JSON

A catalog and a verdict can be printed as JSON. The reader of request bodies takes what is printed
for the document of the catalog and for the data of the verdict, so that nothing is lost: two
verdicts that print alike are the same.
-/

namespace Formulary
set_option autoImplicit false

/-! ## Catalogs that can be sent -/

/-- No name and no symbol of a catalog holds a surrogate. -/
structure Catalog.Sendable (c : Catalog) : Prop where
  names : ∀ x ∈ c.declared, Text.Sendable x.name
  symbols : ∀ op ∈ c.operators, Text.Sendable op.symbol

theorem Catalog.sendable_groups (c : Catalog) :
    (Json.object (OperandType.declarable.map fun t =>
      (t.name, .list ((c.namesOf t).map .str)))).Sendable ↔
      ∀ x ∈ c.declared, Text.Sendable x.name := by
  rw [Json.sendable_object, List.forall_mem_map]
  constructor
  · intro h x hx
    have ht := (OperandType.mem_declarable x.type).mpr (c.declarable.types x hx)
    have hgroup := (Json.sendable_list _).mp (h x.type ht).2
    rw [List.forall_mem_map] at hgroup
    refine (Json.sendable_str _).mp (hgroup x.name (List.mem_map_of_mem (f := Variable.name) ?_))
    exact List.mem_filter.mpr ⟨hx, by simp⟩
  · intro h t _
    refine ⟨t.sendable_name, ?_⟩
    rw [Json.sendable_list, List.forall_mem_map]
    intro name hname
    obtain ⟨x, hx, rfl⟩ := List.mem_map.mp hname
    exact (Json.sendable_str _).mpr (h x (List.mem_of_mem_filter hx))

/-- The document of a catalog can be sent exactly if the catalog can. -/
theorem Catalog.sendable_document (c : Catalog) : c.document.Sendable ↔ c.Sendable := by
  have hoperators : (Json.list (c.operators.map Operator.toJson)).Sendable ↔
      ∀ op ∈ c.operators, Text.Sendable op.symbol := by
    rw [Json.sendable_list, List.forall_mem_map]
    exact forall₂_congr fun op _ => op.sendable_toJson
  rw [Catalog.document, documentFields, Json.sendable_object]
  simp only [List.forall_mem_cons, Text.sendable_ofString, true_and, c.sendable_groups, hoperators]
  constructor
  · rintro ⟨hn, hs, -⟩
    exact ⟨hn, hs⟩
  · intro h
    exact ⟨h.names, h.symbols, List.forall_mem_nil _⟩

/-! ## Bodies -/

/-- A text that opens an object on its first line is in UTF-8, and has no mark. -/
theorem Text.Encoding.detect_object (rest : List UInt8) :
    detect (0x7b :: 0x0a :: rest) = (.utf8, 0x7b :: 0x0a :: rest) := by
  have hm : marks.find? (fun m => m.1.isPrefixOf (0x7b :: 0x0a :: rest)) = none := rfl
  have hz : ofZeros (0x7b :: 0x0a :: rest) = .utf8 := by
    match rest with
    | [] => rfl
    | [_] => rfl
    | _ :: _ :: _ => rfl
  simp only [detect, hm, hz]

theorem Body.ofBytes_encode {d : Depths} {t : Text} {v : Json}
    (h : Json.readWithin (d.room .parsing) (.char '\x7b' :: .char '\n' :: t) = .ok v) :
    ofBytes d (Text.Utf8.encode (.char '\x7b' :: .char '\n' :: t)) = .json v := by
  have hb : Text.Utf8.encode (.char '\x7b' :: .char '\n' :: t) =
      0x7b :: 0x0a :: Text.Utf8.encode t := rfl
  have hr : Text.Encoding.read? (0x7b :: 0x0a :: Text.Utf8.encode t) =
      some (.char '\x7b' :: .char '\n' :: t) := by
    simp only [Text.Encoding.read?, Text.Encoding.detect_object]
    rw [← hb, Text.Encoding.decode?, Text.Utf8.decodePassing_encode]
    rfl
  rw [hb]
  simp only [ofBytes, List.isEmpty_cons, Bool.false_eq_true, if_false, hr, h]

/-- The reader of bodies takes the text for the value, on a line of its own too, and does so with
the bytes of the text. -/
structure ReadAs (d : Depths) (t : Text) (v : Json) : Prop where
  text : Json.readWithin (d.room .parsing) t = .ok v
  line : Json.readWithin (d.room .parsing) (CommandLine.Output.line t) = .ok v
  body : Body.ofBytes d (Text.Utf8.encode t) = .json v

theorem Json.Plain.readAs {d : Depths} {f : Text × Json} {rest : List (Text × Json)}
    (h : Plain (d.room .parsing) (.object (f :: rest))) :
    ReadAs d (pretty (.object (f :: rest))) (.object (f :: rest)) := by
  have htext : readWithin (d.room .parsing) (pretty (.object (f :: rest))) =
      .ok (.object (f :: rest)) := by
    have hr := readWithin_pretty h (List.forall_mem_nil _)
    rw [List.append_nil] at hr
    exact hr
  exact ⟨htext, readWithin_pretty h (by decide), Body.ofBytes_encode htext⟩

/-! ## What is printed is plain -/

open Json

section Plain

variable {n : Nat}

@[simp]
theorem plain_str (s : Text) : Plain n (.str s) := .str s

theorem plain_texts (ts : List Text) : Plain (n + 1) (.list (ts.map .str)) := by
  refine .list ?_
  rw [List.forall_mem_map]
  exact fun t _ => .str t

theorem TypePair.plain_toJson (p : TypePair) : Plain (n + 1) p.toJson := by
  refine .object (show (["left", "right"] : List Text).Nodup by decide) ?_
  simp

theorem Operator.plain_toJson (op : Operator) : Plain (n + 3) op.toJson := by
  have hpairs : Plain (n + 2) (.list (op.pairs.map TypePair.toJson)) := by
    refine .list ?_
    rw [List.forall_mem_map]
    exact fun p _ => p.plain_toJson
  refine .object (show (["symbol", "valid_types"] : List Text).Nodup by decide) ?_
  simp [hpairs]

theorem Catalog.plain_document (c : Catalog) : Plain (n + 5) c.document := by
  have hgroups : Plain (n + 4) (.object
      (OperandType.declarable.map fun t => (t.name, .list ((c.namesOf t).map .str)))) := by
    refine .object (show (OperandType.declarable.map OperandType.name).Nodup by decide) ?_
    rw [List.forall_mem_map]
    exact fun t _ => plain_texts _
  have hoperators : Plain (n + 4) (.list (c.operators.map Operator.toJson)) := by
    refine .list ?_
    rw [List.forall_mem_map]
    exact fun op _ => op.plain_toJson
  refine .object (show (["variables", "operators"] : List Text).Nodup by decide) ?_
  simp [documentFields, hgroups, hoperators]

theorem Verdict.plain_rejected {r : Rejection} (h : Plain (n + 2) (.object r.details)) :
    Plain (n + 3) (Verdict.rejected r).toJson := by
  refine .object (show (["ok", "kind", "message", "details"] : List Text).Nodup by decide) ?_
  simp [h, Plain.bool]

theorem Decided.plain_toJson {c : Catalog} {f : Formula} {v : Verdict} (h : Decided c f v) :
    Plain (n + 3) v.toJson := by
  cases h with
  | incomplete h =>
    have hm : Plain (n + 1)
        (.list ((Field.all.filter (f.Lacks ·)).map fun x => .str x.name)) := by
      have ht := plain_texts (n := n) ((Field.all.filter (f.Lacks ·)).map Field.name)
      rw [List.map_map] at ht
      exact ht
    refine Verdict.plain_rejected (.object (show (["missing"] : List Text).Nodup by decide) ?_)
    simpa [Rejection.incomplete] using hm
  | leftUndeclared s op h =>
    refine Verdict.plain_rejected (.object (show (["left_side"] : List Text).Nodup by decide) ?_)
    simp [Rejection.leftUndeclared]
  | rightUntyped s op hl hr =>
    refine Verdict.plain_rejected (.object (show (["right_side"] : List Text).Nodup by decide) ?_)
    simp [Rejection.rightUntyped]
  | leftRefused s op ht h =>
    refine Verdict.plain_rejected
      (.object (show (["operator", "left_side", "left_type"] : List Text).Nodup by decide) ?_)
    simp [Rejection.leftRefused]
  | rightRefused s op ht hl h =>
    refine Verdict.plain_rejected
      (.object (show (["operator", "right_side", "right_type"] : List Text).Nodup by decide) ?_)
    simp [Rejection.rightRefused]
  | pairRefused s op ht hl hr h =>
    refine Verdict.plain_rejected (.object
      (show (["operator", "left_side", "left_type", "right_side", "right_type"] : List Text).Nodup by decide) ?_)
    simp [Rejection.pairRefused]
  | accepted s op ht h =>
    refine .object (show (["ok", "kind", "message", "details"] : List Text).Nodup by decide) ?_
    have hd : Plain (n + 2) (.object []) := .object .nil (by simp)
    simp [hd, Plain.bool, Plain.null]

end Plain

/-! ## Verdicts as data -/

theorem RejectionKind.ofName?_name (k : RejectionKind) : ofName? k.name = some k := by
  cases k <;> decide

theorem RejectionKind.name_inj {k k' : RejectionKind} (h : k.name = k'.name) : k = k' := by
  have hk := ofName?_name k
  rw [h, ofName?_name k'] at hk
  exact (Option.some.inj hk).symm

theorem Verdict.toJson_inj {v w : Verdict} (h : v.toJson = w.toJson) : v = w := by
  cases v with
  | accepted =>
    cases w with
    | accepted => rfl
    | rejected r => simp [toJson] at h
  | rejected r =>
    cases w with
    | accepted => simp [toJson] at h
    | rejected r' =>
      obtain ⟨kind, message, details⟩ := r
      obtain ⟨kind', message', details'⟩ := r'
      simp only [toJson, Json.object.injEq, List.cons.injEq, Prod.mk.injEq, Json.str.injEq, true_and,
        and_true] at h
      obtain ⟨hk, rfl, rfl⟩ := h
      rw [RejectionKind.name_inj hk]

theorem Depths.exists_room (d : Depths) (t : Task) : ∃ n, d.room t = n + 5 :=
  Nat.exists_eq_add_of_le' (Nat.le_trans (by decide) (d.ample t))

theorem Decided.readAs {c : Catalog} {f : Formula} {v : Verdict} (h : Decided c f v)
    (d : Depths) : ReadAs d (CommandLine.Check.render .json v) v.toJson := by
  have hp : Plain (d.room .parsing) v.toJson := by
    obtain ⟨n, hn⟩ := d.exists_room .parsing
    rw [hn]
    exact h.plain_toJson
  cases v with
  | accepted => exact hp.readAs
  | rejected r => exact hp.readAs

open CommandLine Checker in
/-- The JSON of a catalog is read as its document, from which the same catalog comes back but for the
order of its variables. The JSON of a verdict is read as the data of the verdict, and no other verdict
has the same JSON. -/
theorem printed_json_readBack (d : Depths) (c : Catalog) (f : Formula) :
    ReadAs d (Listing.text .json c) c.document ∧ (c.Sendable → c.document.Sendable) ∧
    (∃ c', Catalog.ofDocument c.document = .ok c' ∧ c'.operators = c.operators ∧
      c'.declared.Perm c.declared ∧ (∀ g, checkFormula c' g = checkFormula c g) ∧
      c'.document = c.document) ∧
    ∃ v, checkFormula c f = .ok v ∧ ReadAs d (Check.render .json v) v.toJson ∧
      (f.Sendable → v.toJson.Sendable) ∧
      ∀ (c' : Catalog) (f' : Formula) (v' : Verdict), checkFormula c' f' = .ok v' →
        Check.render .json v' = Check.render .json v → v' = v := by
  have hp : Plain (d.room .parsing) c.document := by
    obtain ⟨n, hn⟩ := d.exists_room .parsing
    rw [hn]
    exact c.plain_document
  obtain ⟨v, hv⟩ := exists_decided c f
  refine ⟨hp.readAs, c.sendable_document.mpr, ?_, v, checkFormula_of_decided hv, hv.readAs d,
    hv.sendable, ?_⟩
  · exact ⟨c.regrouped, c.ofDocument_document, rfl, c.grouped_perm,
      checkFormula_congr c.typeOf?_regrouped, c.document_regrouped⟩
  · intro c' f' v' hv' he
    have hr := (((decided_iff hv' v').mpr rfl).readAs d).text
    rw [he, (hv.readAs d).text] at hr
    exact (Verdict.toJson_inj (Except.ok.inj hr)).symm

end Formulary
