import Formulary.Proofs.FormulaRequest
import Formulary.Proofs.Loading
import Formulary.Proofs.Switches

/-! # One inquiry, asked in two ways

A formula can be checked by the command and by the service. If both load their catalog from files of
one content, they look for the same operator and come to the same verdict, which the command prints
and the service sends. The two differ only where something is to be sent that cannot be: the service
then fails where the command prints.
-/

namespace Formulary
set_option autoImplicit false

namespace Inquiry

variable {c : Catalog} {q : Inquiry} {f g : Formula}

theorem Resolved.known (h : Resolved c q f) (symbol : Text) : ¬ Unknown c q symbol := by
  intro hu
  have he := h.resolve
  rw [hu.resolve] at he
  cases he

/-- An inquiry asks for one formula only, since symbols are distinct in a catalog. -/
theorem Resolved.unique (hf : Resolved c q f) (hg : Resolved c q g) : g = f := by
  have he := hg.resolve
  rw [hf.resolve] at he
  exact (Except.ok.inj he).symm

end Inquiry

/-- What a file is called matters only to the message of a fault. -/
theorem Catalog.ofBytes_label {h : Yaml.Host} {label : Text} {content : List UInt8} {c : Catalog}
    (hc : ofBytes h label content = .ok c) (label' : Text) : ofBytes h label' content = .ok c := by
  unfold ofBytes at hc ⊢
  cases hd : Text.Utf8.decode content with
  | error f =>
    rw [hd] at hc
    cases hc
  | ok t =>
    rw [hd] at hc
    exact hc

/-! ## The command -/

namespace CommandLine.Check

variable {h : Yaml.Host} {files : Files} {words : List Text} {o : Options} {name : Text}
variable {content : List UInt8} {c : Catalog}

theorem run_asks (ha : Asks words o) (hn : o.catalog? = some name)
    (hr : files.read (Path.ofText name) = .ok content)
    (hc : Catalog.ofBytes h name content = .ok c) : run h files words = answer o c := by
  obtain ⟨xs, hp, rfl⟩ := ha
  have hl : Catalog.load h files name (Path.ofText name) = .ok c := by
    rw [Catalog.load_of_read hr, hc]
  simp only [run, hp, hn, withCatalog, hl]

/-- What stands on the output for a verdict. -/
inductive Shows : Format → Verdict → Text → Prop where
  | json (v : Verdict) : Shows .json v (v.toJson.pretty ++ "\n")
  | accepted : Shows .text .accepted "OK\n"
  | rejected (r : Rejection) : Shows .text (.rejected r) (r.kind.name ++ ": " ++ r.message ++ "\n")

theorem shows_render (format : Format) (v : Verdict) :
    Shows format v (Output.line (render format v)) := by
  cases format with
  | json => exact .json v
  | text =>
    cases v with
    | accepted => exact .accepted
    | rejected r => exact .rejected r

theorem Shows.eq_ok {v : Verdict} {t : Text} (h : Shows .text v t) :
    t = "OK\n" ↔ v.isOk = true := by
  cases h with
  | accepted => simp [Verdict.isOk]
  | rejected r =>
    -- the names of the kinds have no capitals
    have hne : ∀ (kind : RejectionKind) (rest : Text), kind.name ++ rest ≠ "OK\n" := by
      intro kind rest h
      have hhead := congrArg List.head? h
      cases kind <;> simp [RejectionKind.name, Text.ofString, Text.ofChars] at hhead
    simp only [List.append_assoc, hne, Verdict.isOk, Bool.false_eq_true]

end CommandLine.Check

/-! ## The service -/

/-- The request asks a service for a verdict, where so much can be read. -/
inductive Request.Asks (d : Depths) (r : Request) (q : Inquiry) : Prop where
  | body {fields : List (Text × Json)} (hp : r.Posts .validate)
      (hb : (Body.ofBytes d r.body).Holds (some (.object fields))) (hq : Inquiry.Says fields q)

namespace Service

/-- The configuration in force names a file of that content, and its catalog has not been loaded. -/
inductive LoadsNow (s : Service) (content : List UInt8) : Prop where
  | file {k : Configuration} {p : Path} (hk : s.InForce k) (hp : k.catalogPath? = some p)
      (hn : s.catalogs.get? k = none) (hr : s.files.read p = .ok content)

theorem answer_asks {s : Service} {r : Request} {q : Inquiry} {content : List UInt8} {c : Catalog}
    (hs : s.LoadsNow content) (hr : r.Asks s.site.toDepths q)
    (hc : ∀ label, Catalog.ofBytes s.site.toHost label content = .ok c) :
    (∀ symbol, q.resolve c = .error ⟨symbol⟩ →
      (s.answer r).2 = Response.detail 422 (.str ("Unknown operator: " ++ symbol))) ∧
    ∀ f, q.resolve c = .ok f → (s.answer r).2 = Response.validated c f := by
  obtain @⟨k, p, hk, hp, hn, hread⟩ := hs
  obtain ⟨hpost, hb, hq⟩ := hr
  have hload : s.loadFrom s.files k = .ok c := by
    simp only [loadFrom, Configuration.loadCatalog, hp, Catalog.load_of_read hread, hc]
  rw [answer_posts hpost, answerFormula_holds hb, withCatalog_finds hk (.loaded hn hload)]
  constructor
  · intro symbol hres
    simp only [withFormula, hq.ofBody, hres]
    rfl
  · intro f hres
    simp only [withFormula, hq.ofBody, hres]
    rfl

end Service

/-! ## Both -/

open CommandLine (Output)
open CommandLine.Check (Format Shows Spellable spelled)

/-- The command and the service say the same of an inquiry, if the service can say it. -/
inductive Agree (c : Catalog) (q : Inquiry) (format : Format) :
    Except CommandLine.Check.Escape Output → Except Escape Response → Prop where
  | unknown {symbol : Text} {a : Except Escape Response} (hu : Inquiry.Unknown c q symbol)
      (sent : Text.Sendable symbol →
        a = .ok ⟨422, .object [("detail", .str ("Unknown operator: " ++ symbol))]⟩)
      (unsent : ¬ Text.Sendable symbol → ∃ x, a = .error (.detailNotText x)) :
    Agree c q format
      (.ok ⟨1, "", "Unknown operator " ++ Text.quoted symbol ++ "; expected one of: " ++
        Text.join ", " (c.operators.map (·.symbol)) ++ "\n"⟩) a
  | judged {f : Formula} {v : Verdict} {o : Output} {a : Except Escape Response}
      (known : ∀ symbol, ¬ Inquiry.Unknown c q symbol) (hf : Inquiry.Resolved c q f)
      (only : ∀ g, Inquiry.Resolved c q g → g = f) (hv : Checker.checkFormula c f = .ok v)
      (code : o.code = if v.isOk then 0 else 1) (shown : Shows format v o.stdout)
      (okLine : format = .text → (o.stdout = "OK\n" ↔ v.isOk = true))
      (sent : v.toJson.Sendable → a = .ok ⟨200, v.toJson⟩)
      (unsent : ¬ v.toJson.Sendable → ∃ x, a = .error (.documentNotText x))
      (plain : q.Sendable → v.toJson.Sendable) :
    Agree c q format (.ok o) a

section Agreement

variable {c : Catalog} {q : Inquiry} {format : Format} {a : Except Escape Response}
variable {name? : Option Text} {verbose : Bool}

theorem agree_unknown {symbol : Text} (hu : Inquiry.Unknown c q symbol)
    (ha : a = Response.detail 422 (.str ("Unknown operator: " ++ symbol))) :
    Agree c q format (CommandLine.Check.answer ⟨q, [], name?, format, verbose⟩ c) a := by
  have hsend : (Json.str ("Unknown operator: " ++ symbol)).Sendable ↔ Text.Sendable symbol := by
    simp
  have hcli : CommandLine.Check.answer ⟨q, [], name?, format, verbose⟩ c =
      .ok (.failed (CommandLine.Check.unknownOperator c ⟨symbol⟩)) := by
    simp only [CommandLine.Check.answer, hu.resolve]
  rw [hcli, ha]
  apply Agree.unknown hu
  · intro hs
    exact Response.detail_ok 422 rfl (hsend.mpr hs)
  · intro hs
    exact Response.detail_error 422 rfl (mt hsend.mp hs)

theorem agree_judged {f : Formula} (hf : Inquiry.Resolved c q f)
    (ha : a = Response.validated c f) :
    Agree c q format (CommandLine.Check.answer ⟨q, [], name?, format, verbose⟩ c) a := by
  obtain ⟨v, hv⟩ := Checker.exists_decided c f
  obtain ⟨log, hlog⟩ := Response.run_of_decided hv
  have hcli : CommandLine.Check.answer ⟨q, [], name?, format, verbose⟩ c =
      .ok ⟨if v.isOk then 0 else 1, Output.line (CommandLine.Check.render format v),
        if verbose then CommandLine.Check.logLines log else ""⟩ := by
    simp only [CommandLine.Check.answer, hf.resolve, hlog, List.isEmpty_nil, Bool.not_true,
      Bool.false_eq_true, if_false]
  have hshown := CommandLine.Check.shows_render format v
  rw [hcli, ha, Response.validated_eq hv]
  refine .judged hf.known hf (fun _ => hf.unique) (Checker.checkFormula_of_decided hv) rfl
    hshown ?_ Response.document_ok Response.document_error ?_
  · rintro rfl
    exact hshown.eq_ok
  · intro hq
    exact hv.sendable (hf.sendable hq)

end Agreement

/-- For every content of a file that is a catalog and for every inquiry: the command can be asked it,
unless one of its texts is `--`, and however the command is asked it and the service is asked it,
with that content as the catalog, they agree. Both may run on one host, or on two on which the content
is the same catalog. -/
theorem command_agrees_with_service {h : Yaml.Host} {label : Text} {content : List UInt8}
    {c : Catalog} (hload : Catalog.ofBytes h label content = .ok c) (q : Inquiry) :
    (∀ name format, Spellable q → name ≠ [] → name ≠ CommandLine.endOfSwitches →
      CommandLine.Check.Asks (spelled q name format) ⟨q, [], some name, format, false⟩) ∧
    ∀ (files : Files) (words : List Text) (name : Text) (format : Format) (verbose : Bool)
      (s : Service) (r : Request),
      CommandLine.Check.Asks words ⟨q, [], some name, format, verbose⟩ →
      files.read (Path.ofText name) = .ok content → s.LoadsNow content →
      (s.site.toHost = h ∨ Catalog.ofBytes s.site.toHost label content = .ok c) →
      r.Asks s.site.toDepths q →
      Agree c q format (CommandLine.Check.run h files words) (s.answer r).2 := by
  constructor
  · intro name format hq hne hname
    exact CommandLine.Check.asks_spelled hq hne hname
  · intro files words name format verbose s r hwords hread hs hhost hr
    have hservice : Catalog.ofBytes s.site.toHost label content = .ok c :=
      hhost.elim (fun he => he ▸ hload) id
    rw [CommandLine.Check.run_asks hwords rfl hread (Catalog.ofBytes_label hload name)]
    obtain ⟨hstopped, hchecked⟩ := Service.answer_asks hs hr (Catalog.ofBytes_label hservice)
    rcases Inquiry.resolve_cases c q with ⟨f, hf, hres⟩ | ⟨symbol, hu, hres⟩
    · exact agree_judged hf (hchecked f hres)
    · exact agree_unknown hu (hstopped symbol hres)

/-- Every file is empty, which is a catalog without operators. -/
def emptyFiles : Files := ⟨fun _ => .ok []⟩

/-- An inquiry whose symbol is a surrogate. -/
def surrogateSymbol : Inquiry := ⟨none, some [.surrogate 0x480], none⟩

/-- The inquiry as a request. -/
def surrogateRequest : Request :=
  ⟨.post, Endpoint.validate.path, Text.Utf8.encode "\x7b\"operator\":\"\\udc80\"\x7d", ⟨"", ""⟩⟩

/-- A service whose catalog is an empty file. -/
def emptyFileService : Service :=
  { Service.initial .least with
    files := emptyFiles, override? := some ⟨false, some (Path.ofText "c.yaml")⟩ }

theorem surrogateSymbol_printed_not_sent :
    Catalog.ofBytes .least "c.yaml" [] = .ok ⟨[], [], rfl⟩ ∧
    CommandLine.Check.Asks (spelled surrogateSymbol "c.yaml" .text)
      ⟨surrogateSymbol, [], some "c.yaml", .text, false⟩ ∧
    emptyFiles.read (Path.ofText "c.yaml") = .ok [] ∧ emptyFileService.LoadsNow [] ∧
    surrogateRequest.Asks emptyFileService.site.toDepths surrogateSymbol ∧
    CommandLine.Check.run .least emptyFiles (spelled surrogateSymbol "c.yaml" .text) =
      .ok ⟨1, "", "Unknown operator '\\udc80'; expected one of: \n"⟩ ∧
    ∃ x, (emptyFileService.answer surrogateRequest).2 = .error (.detailNotText x) := by
  have hload : Catalog.ofBytes .least "c.yaml" [] = .ok ⟨[], [], rfl⟩ := by decide +kernel
  have hread : emptyFiles.read (Path.ofText "c.yaml") = .ok [] := by decide +kernel
  have hs : emptyFileService.LoadsNow [] := .file (.override rfl) rfl rfl hread
  have hr : surrogateRequest.Asks emptyFileService.site.toDepths surrogateSymbol := by
    obtain ⟨fields, hb, hq⟩ := Body.says_of_inquiry? (q := surrogateSymbol)
      (b := Body.ofBytes emptyFileService.site.toDepths surrogateRequest.body) (by decide +kernel)
    exact .body (Request.posts_path .validate rfl _ _) hb hq
  obtain ⟨hspelled, hagree⟩ := command_agrees_with_service hload surrogateSymbol
  have hw := hspelled "c.yaml" .text ⟨by decide, by decide, by decide⟩ (by decide) (by decide)
  have hu : Inquiry.Unknown ⟨[], [], rfl⟩ surrogateSymbol [.surrogate 0x480] :=
    ⟨rfl, List.cons_ne_nil _ _, List.forall_mem_nil _⟩
  refine ⟨hload, hw, hread, hs, hr, ?_⟩
  have h := hagree emptyFiles _ "c.yaml" .text false emptyFileService _ hw hread hs (.inl rfl) hr
  generalize CommandLine.Check.run .least emptyFiles _ = out at h ⊢
  generalize (emptyFileService.answer surrogateRequest).2 = a at h ⊢
  cases h with
  | judged known => exact absurd hu (known _)
  | unknown hu' sent unsent =>
    obtain rfl := Option.some.inj (hu.given.symm.trans hu'.given)
    exact ⟨by decide +kernel, unsent (by simp [CodePoint.isSurrogate])⟩

end Formulary
