import Formulary.Proofs.FormulaRequest
import Formulary.Proofs.Printing
import Formulary.Proofs.Reload
import Formulary.Proofs.Yaml.Valueless

/-! # What comes of the file of a catalog

Whoever asks for the catalog of a file gets it or reports why there is none: a command line ends with
its one message, a request is answered by a response. What is not reported stops the one who asked:
the text has no value although its form is right, something in it goes deeper than the host has room,
or the path cannot be asked for.

A catalog that has been loaded stops no command. It stops a request only if its document is asked for
and holds a surrogate, since everything else that is sent is taken from the request. In the same way
what a command prints holds a surrogate of the catalog only if it is the document as JSON.
-/

namespace Formulary
set_option autoImplicit false

/-! ## Loading -/

namespace Catalog

/-- What a text is made into on a host. -/
inductive Made (h : Yaml.Host) (text : Text) : Except LoadFault Catalog → Prop where
  | catalog (c : Catalog) : Made h text (.ok c)
  | fault (e : CatalogError) : Made h text (.error (.catalog e))
  | valueless {f : Yaml.ScalarFault} (hv : Yaml.Valueless text f) : Made h text (.error (.scalar f))
  | tooDeep {t : Task} (hd : Yaml.TooDeep h text t) : Made h text (.error (.tooDeep t))

theorem made_ofYaml (h : Yaml.Host) (text : Text) : Made h text (ofYaml h text) := by
  have hread := Yaml.ensures_read_text h text
  unfold ofYaml
  cases hr : Yaml.read h text with
  | error f =>
    rw [hr] at hread
    cases hread with
    | form p spot? => exact .fault _
    | valueless hv => exact .valueless hv
    | tooDeep hd => exact .tooDeep hd
  | ok v =>
    rw [hr] at hread
    have hdeep : (if v.layer.isNothing then ofEntries ([] : List (Yaml.Value × Yaml.Value))
        else ofDocument v) = .error .tooDeep →
        ∃ w, v.Holds w ∧ ValueLike.notated w = .error .tooDeep := by
      split
      · exact exists_deep_of_ofEntries v.closed_holds (List.forall_mem_nil _)
      · exact exists_deep_of_ofDocument v.closed_holds ⟨rfl, .refl⟩
    dsimp only
    generalize (if v.layer.isNothing then _ else _ : Except _ Catalog) = x at hdeep ⊢
    cases x with
    | ok c => exact .catalog c
    | error g =>
      cases g with
      | fault f => exact .fault _
      | tooDeep =>
        obtain ⟨w, hw, hn⟩ := hdeep rfl
        have hsteps := Yaml.Value.deep_of_notated hn
        rw [hw.1, hread, ← hw.1] at hsteps
        exact .tooDeep (.spelling hr hw hsteps)

theorem load_of_read {files : Files} {p : Path} {content : List UInt8}
    (hr : files.read p = .ok content) (h : Yaml.Host) (label : Text) :
    load h files label p = ofBytes h label content := by
  rw [load, hr]

theorem load_of_decode {files : Files} {p : Path} {content : List UInt8} {t : Text}
    (hr : files.read p = .ok content) (ht : Text.Utf8.decode content = .ok t) (h : Yaml.Host)
    (label : Text) : load h files label p = ofYaml h (Text.unifyLineEnds t) := by
  rw [load_of_read hr, ofBytes, ht]

end Catalog

/-- What the loader makes of a file, and how that ends for the one who asked. -/
inductive Ends {ω : Type} (h : Yaml.Host) (found : Except FileFault (List UInt8))
    (after : Catalog → ω → Prop) (report : Text → ω → Prop) (escape : LoadFault → ω) :
    Except LoadFault Catalog → ω → Prop where
  | catalog {c : Catalog} {out : ω} (hc : after c out) : Ends h found after report escape (.ok c) out
  | fault {e : CatalogError} {out : ω} (hm : report e.message out) :
    Ends h found after report escape (.error (.catalog e)) out
  | refused {r : Refusal} {path : Text} {out : ω} (hf : found = .error (.refused r path))
    (hm : report (FileFault.refused r path).message out) :
    Ends h found after report escape (.error (.file (.refused r path))) out
  /-- Every character can be read, and a scalar or the whole text has no value. -/
  | valueless {content : List UInt8} {t : Text} {f : Yaml.ScalarFault} (hf : found = .ok content)
    (ht : Text.Utf8.decode content = .ok t) (hv : Yaml.Valueless (Text.unifyLineEnds t) f) :
    Ends h found after report escape (.error (.scalar f)) (escape (.scalar f))
  /-- Every character can be read, and a task on the text needs more room than there is. -/
  | tooDeep {content : List UInt8} {t : Text} {task : Task} (hf : found = .ok content)
    (ht : Text.Utf8.decode content = .ok t) (hd : Yaml.TooDeep h (Text.unifyLineEnds t) task) :
    Ends h found after report escape (.error (.tooDeep task)) (escape (.tooDeep task))
  /-- No content is asked for. -/
  | path {f : FileFault} (hf : found = .error f) (hn : f = .embeddedNul ∨ ∃ x, f = .notText x) :
    Ends h found after report escape (.error (.file f)) (escape (.file f))

/-- The load of a path ends as its asker treats it, if the asker reports what is to be reported and
lets the rest escape. -/
theorem Catalog.load_ends {ω : Type} (h : Yaml.Host) (files : Files) (label : Text) (p : Path)
    {after : Catalog → ω → Prop} {report : Text → ω → Prop} {escape : LoadFault → ω} {out : ω}
    (hok : ∀ c, load h files label p = .ok c → after c out)
    (hreport : ∀ f, load h files label p = .error f → f.isReported = true → report f.message out)
    (hescape : ∀ f, load h files label p = .error f → f.isReported = false → out = escape f) :
    Ends h (files.read p) after report escape (load h files label p) out := by
  cases hf : files.read p with
  | error f =>
    have hl : load h files label p = .error (.file f) := by rw [load, hf]
    rw [hl]
    cases f with
    | refused r path => exact .refused rfl (hreport _ hl rfl)
    | embeddedNul =>
      rw [hescape _ hl rfl]
      exact .path rfl (.inl rfl)
    | notText x =>
      rw [hescape _ hl rfl]
      exact .path rfl (.inr ⟨x, rfl⟩)
  | ok content =>
    cases ht : Text.Utf8.decode content with
    | error f =>
      have hl : load h files label p = .error (.catalog (.notUtf8 label f)) := by
        rw [load_of_read hf, ofBytes, ht]
      rw [hl]
      exact .fault (hreport _ hl rfl)
    | ok t =>
      have hmade := made_ofYaml h (Text.unifyLineEnds t)
      rw [← load_of_decode hf ht h label] at hmade
      generalize hx : load h files label p = x at hmade
      cases hmade with
      | catalog c => exact .catalog (hok c hx)
      | fault e => exact .fault (hreport _ hx rfl)
      | valueless hv =>
        rw [hescape _ hx rfl]
        exact .valueless rfl ht hv
      | tooDeep hd =>
        rw [hescape _ hx rfl]
        exact .tooDeep rfl ht hd

/-! ## Commands -/

theorem Yaml.Readable.sendable {t : Text} (h : Readable t) : Text.Sendable t := by
  intro c hc
  have hr := h c hc
  cases c with
  | char ch => rfl
  | surrogate k =>
    have htilde : ¬ CodePoint.surrogate k ≤ '~' := by
      show ¬ 0xD800 + k.val ≤ 0x7E
      omega
    have hbeyond : ¬ 0x10000 ≤ (CodePoint.surrogate k).toNat := by
      show ¬ 0x10000 ≤ 0xD800 + k.val
      omega
    simp [isReadable, htilde, hbeyond, CodePoint.isSurrogate] at hr

namespace CommandLine

/-- A command ends with the message of a catalog that cannot be loaded. -/
def Reports {ε : Type} (name m : Text) (out : Except ε Output) : Prop :=
  out = .ok ⟨1, "", "Cannot load catalog " ++ name ++ ": " ++ m ++ "\n"⟩

theorem withCatalog_ends {ε : Type} (escape : LoadFault → ε) (h : Yaml.Host) (files : Files)
    (name : Text) {next : Catalog → Except ε Output} {after : Catalog → Except ε Output → Prop}
    (hnext : ∀ c, after c (next c)) :
    Ends h (files.read (Path.ofText name)) after (Reports name) (fun f => .error (escape f))
      (Catalog.load h files name (Path.ofText name))
      (withCatalog escape (some name) (fun name => Catalog.load h files name (Path.ofText name))
        next) := by
  apply Catalog.load_ends
  · intro c hc
    simp only [withCatalog, hc]
    exact hnext c
  · intro f hf hr
    simp only [withCatalog, hf, hr, if_true]
    rfl
  · intro f hf hr
    simp only [withCatalog, hf, hr, Bool.false_eq_true, if_false]

namespace Check

/-- What the command that checks a formula does with a catalog. It is stopped only by a side that is
given without a value, and prints no surrogate that is not in what it is asked. -/
inductive Answers (o : Options) (c : Catalog) : Except Escape Output → Prop where
  | ended {output : Output} (ha : answer o c = .ok output)
    (hs : o.inquiry.Sendable → Text.Sendable output.stdout) : Answers o c (.ok output)
  | invalid (ha : answer o c = .error (.invalid o.issues)) (hi : o.issues ≠ []) :
    Answers o c (.error (.invalid o.issues))

theorem sendable_render (format : Format) {v : Verdict} (h : v.toJson.Sendable) :
    Text.Sendable (render format v) := by
  cases format with
  | json => exact v.toJson.sendable_pretty.mpr h
  | text =>
    cases v with
    | accepted => exact Text.sendable_ofString _
    | rejected r =>
      have hm := ((Verdict.sendable_rejected r).mp h).1
      simp [render, Verdict.line, hm]

theorem answers (o : Options) (c : Catalog) : Answers o c (answer o c) := by
  rcases Inquiry.resolve_cases c o.inquiry with ⟨f, hf, hres⟩ | ⟨symbol, hu, hres⟩
  · obtain ⟨v, hv⟩ := Checker.exists_decided c f
    obtain ⟨log, hlog⟩ := Response.run_of_decided hv
    cases hi : o.issues with
    | nil =>
      have ha : answer o c = .ok ⟨if v.isOk then 0 else 1, Output.line (render o.format v),
          if o.verbose then logLines log else ""⟩ := by
        simp [answer, hres, hi, hlog]
      rw [ha]
      refine .ended ha fun hq => ?_
      have hrender := sendable_render o.format (hv.sendable (hf.sendable hq))
      simp [Output.line, hrender]
    | cons i rest =>
      have ha : answer o c = .error (.invalid o.issues) := by simp [answer, hres, hi]
      rw [ha]
      exact .invalid ha (by simp [hi])
  · have ha : answer o c = .ok (.failed (unknownOperator c ⟨symbol⟩)) := by simp [answer, hres]
    rw [ha]
    exact .ended ha fun _ => Text.sendable_ofString _

theorem run_ends (h : Yaml.Host) (files : Files) {words : List Text} {xs : List Setting}
    {name : Text} (hp : parse table words = .ok (.settings xs)) (hn : catalogName? xs = some name) :
    Ends h (files.read (Path.ofText name)) (Answers (options xs)) (Reports name)
      (fun f => .error (.load f)) (Catalog.load h files name (Path.ofText name))
      (run h files words) := by
  have hrun : run h files words = withCatalog .load (some name)
      (fun name => Catalog.load h files name (Path.ofText name)) (answer (options xs)) := by
    simp only [run, hp, ← hn]
    rfl
  rw [hrun]
  exact withCatalog_ends _ h files name (answers _)

end Check

namespace Listing

/-- What is printed of a catalog holds a surrogate only as JSON, since YAML has an escape for it. -/
theorem sendable_text (format : Format) (c : Catalog) :
    Text.Sendable (text format c) ↔ format = .yaml ∨ c.Sendable := by
  cases format with
  | yaml =>
    have hr : Yaml.Readable (Yaml.write c.documentFields) :=
      Yaml.readable_write c.writable_document (by decide)
    exact iff_of_true hr.sendable (.inl rfl)
  | json =>
    rw [text, Json.sendable_pretty, c.sendable_document]
    simp

/-- What the command that prints a catalog does with it. -/
structure Prints (o : Options) (c : Catalog) (out : Except LoadFault Output) : Prop where
  ended : out = .ok ⟨0, text o.format c ++ "\n", ""⟩
  sendable : Text.Sendable (text o.format c ++ "\n") ↔ o.format = .yaml ∨ c.Sendable

theorem prints (o : Options) (c : Catalog) : Prints o c (.ok (answer o c)) where
  ended := rfl
  sendable := by simp [sendable_text]

theorem run_ends (h : Yaml.Host) (files : Files) {words : List Text} {xs : List Setting}
    {name : Text} (hp : parse table words = .ok (.settings xs)) (hn : catalogName? xs = some name) :
    Ends h (files.read (Path.ofText name)) (Prints (options xs)) (Reports name) .error
      (Catalog.load h files name (Path.ofText name)) (run h files words) := by
  have hrun : run h files words = withCatalog id (some name)
      (fun name => Catalog.load h files name (Path.ofText name))
      (fun c => .ok (answer (options xs) c)) := by
    simp only [run, hp, ← hn]
    rfl
  rw [hrun]
  exact withCatalog_ends id h files name (prints _)

end Listing

end CommandLine

/-! ## Requests -/

/-- The answer to a request whose catalog is unavailable. A message with a surrogate cannot be
sent. -/
def Response.Unavailable (m : Text) (a : Except Escape Response) : Prop :=
  (∀ c ∈ m, c.isSurrogate = false) ∧
      a = .ok ⟨500, .object [("detail", .str ("Formula catalog unavailable: " ++ m))]⟩ ∨
    (∃ c ∈ m, c.isSurrogate = true) ∧ ∃ f, a = .error (.detailNotText f)

theorem Response.unavailable_detail (m : Text) :
    Unavailable m (detail 500 (.str ("Formula catalog unavailable: " ++ m))) := by
  have hsend : (Json.str ("Formula catalog unavailable: " ++ m)).Sendable ↔ Text.Sendable m := by
    simp
  by_cases hm : Text.Sendable m
  · exact .inl ⟨hm, detail_ok 500 rfl (hsend.mpr hm)⟩
  · refine .inr ⟨?_, detail_error 500 rfl (mt hsend.mp hm)⟩
    simpa [Text.Sendable] using hm

/-- The request asks for the catalog. -/
structure Request.Gets (r : Request) : Prop where
  method : r.method = .get
  path : Endpoint.ofPath? r.path = some .catalog

/-- A request needs a configuration and its catalog only at an endpoint that takes it. -/
theorem Request.gets_or_posts {r : Request} {site : Site}
    {next : Configuration → Catalog → Except Escape Response} (h : r.plan site = .pending next) :
    r.Gets ∨ ∃ e, r.Posts e := by
  unfold plan at h
  split at h
  · cases h
  · rename_i e he
    split at h
    · rename_i hm
      cases e with
      | catalog => exact .inl ⟨hm.symm, he⟩
      | validate => exact .inr ⟨_, hm.symm, rfl, he⟩
      | submit => exact .inr ⟨_, hm.symm, rfl, he⟩
    · cases h

namespace Service

theorem answer_gets {r : Request} (h : r.Gets) (s : Service) :
    s.answer r = s.withCatalog fun _ c => Response.document c.document := by
  rw [answer, h.path]
  simp only [h.method, Endpoint.method, if_true, answerEndpoint]

/-- What a request for the catalog leaves and what it is to be answered with. -/
inductive Shows (s : Service) : Service → Intent → Prop where
  | uncatalogued {s' : Service} {o : Intent} (h : s.Uncatalogued s' o) : Shows s s' o
  | document {k : Configuration} {c : Catalog} (hk : s.InForce k) (hc : s.Finds k c) :
    Shows s (s.holding k) (.document c.document)

/-- A request for the catalog is answered with its document, or as one for which there is none. -/
theorem exists_shows (s : Service) {r : Request} (h : r.Gets) :
    ∃ o, Shows s (s.answer r).1 o ∧ (s.answer r).2 = o.sent s.site.toDepths := by
  rw [answer_gets h]
  rcases s.catalog_or_not with ⟨k, c, hk, hc⟩ | ⟨s', o, ho, hw⟩
  · rw [withCatalog_finds hk hc]
    exact ⟨_, .document hk hc, rfl⟩
  · rw [hw]
    exact ⟨o, .uncatalogued ho, rfl⟩

/-- What a request gets once its catalog is there. -/
inductive Served (s : Service) (r : Request) (c : Catalog) : Except Escape Response → Prop where
  | document (hr : r.Gets) (hc : c.Sendable) : Served s r c (.ok ⟨200, c.document⟩)
  /-- A name or a symbol of the catalog holds a surrogate. -/
  | notText (hr : r.Gets) (hc : ¬ c.Sendable) (f : Text.Utf8.SurrogateFault) :
    Served s r c (.error (.documentNotText f))
  | formula {e : Endpoint} {s' : Service} {o : Intent} {x : Response} (hr : r.Posts e)
      (ho : Outcome s r e s' o) (hx : o.answer = .ok x) : Served s r c (.ok x)
  /-- The request itself holds something that cannot be sent back. -/
  | unclean {e : Endpoint} (hr : r.Posts e) (hc : ¬ r.Clean s.site.toDepths) (x : Escape) :
    Served s r c (.error x)

theorem served {s : Service} {r : Request} {k : Configuration} {c : Catalog}
    {next : Configuration → Catalog → Except Escape Response} (hr : r.plan s.site = .pending next)
    (hk : s.InForce k) (hc : s.Finds k c) : Served s r c (s.answer r).2 := by
  rcases Request.gets_or_posts hr with hg | ⟨e, hp⟩
  · rw [answer_gets hg, withCatalog_finds hk hc]
    by_cases hs : c.Sendable
    · rw [Response.document_ok (c.sendable_document.mpr hs)]
      exact .document hg hs
    · obtain ⟨f, hf⟩ := Response.document_error (mt c.sendable_document.mp hs)
      rw [hf]
      exact .notText hg hs f
  · cases ha : (s.answer r).2 with
    | ok x =>
      obtain ⟨o, ho, heq⟩ := s.exists_outcome hp
      exact .formula hp ho (Intent.sent_eq_ok (heq.symm.trans ha))
    | error x =>
      refine .unclean hp (fun hclean => ?_) x
      obtain ⟨y, hy⟩ := hc.answered hk hp hclean
      rw [hy] at ha
      cases ha

theorem answer_ends {s : Service} {r : Request}
    {next : Configuration → Catalog → Except Escape Response} {k : Configuration} {p : Path}
    (hr : r.plan s.site = .pending next) (hk : s.InForce k) (hm : s.catalogs.get? k = none)
    (hp : k.catalogPath? = some p) :
    Ends s.site.toHost (s.files.read p) (Served s r) Response.Unavailable
      (fun f => .error (.load f)) (Catalog.load s.site.toHost s.files p.text p) (s.answer r).2 := by
  have hload : s.loadFrom s.files k = Catalog.load s.site.toHost s.files p.text p := by
    simp only [loadFrom, Configuration.loadCatalog, hp]
  have hlacks : ∀ f, Catalog.load s.site.toHost s.files p.text p = .error f →
      (s.answer r).2 = Response.refusedLoad f := by
    intro f hf
    have hl : s.Lacks k f := ⟨hm, hload.trans hf⟩
    rw [answer_inForce hr hk, hl.ask]
    rfl
  apply Catalog.load_ends
  · intro c hc
    exact served hr hk (.loaded hm (hload.trans hc))
  · intro f hf hrep
    rw [hlacks f hf, Response.refusedLoad, if_pos hrep]
    exact Response.unavailable_detail _
  · intro f hf hrep
    rw [hlacks f hf, Response.refusedLoad, if_neg (Bool.eq_false_iff.mp hrep)]

end Service

open CommandLine in
/-- The file of a catalog, whatever it holds, is a catalog or is reported, by both commands and to
every request that has to load it, unless its text has no value or goes deeper than the host has room.
Then the fault escapes. -/
theorem catalog_file_ends (h : Yaml.Host) (files : Files) :
    (∀ words xs name, parse Check.table words = .ok (.settings xs) → catalogName? xs = some name →
      Ends h (files.read (Path.ofText name)) (Check.Answers (Check.options xs)) (Reports name)
        (fun f => .error (.load f)) (Catalog.load h files name (Path.ofText name))
        (Check.run h files words)) ∧
    (∀ words xs name, parse Listing.table words = .ok (.settings xs) → catalogName? xs = some name →
      Ends h (files.read (Path.ofText name))
        (Listing.Prints (Listing.options xs)) (Reports name) .error
        (Catalog.load h files name (Path.ofText name)) (Listing.run h files words)) ∧
    ∀ (s : Service) (r : Request) next k p, s.site.toHost = h → s.files = files →
      r.plan s.site = .pending next → s.InForce k → s.catalogs.get? k = none →
      k.catalogPath? = some p →
      Ends h (files.read p) (Service.Served s r) Response.Unavailable (fun f => .error (.load f))
        (Catalog.load h files p.text p) (s.answer r).2 := by
  refine ⟨fun words xs name => Check.run_ends h files, fun words xs name => Listing.run_ends h files,
    ?_⟩
  rintro s r next k p rfl rfl hr hk hm hp
  exact Service.answer_ends hr hk hm hp

/-- One file, with a catalog that names a day in a thirteenth month. -/
def dated : Files :=
  ⟨fun _ => .ok (Text.Utf8.encode "variables:\n  int: [2020-13-45]\n")⟩

theorem impossible_date_escapes :
    CommandLine.Check.run .least dated
        ["--catalog", "c.yaml", "--left", "a", "--operator", "=", "--right", "1"] =
      .error (.load (.scalar (.calendar .month))) ∧
    CommandLine.Listing.run .least dated ["--catalog", "c.yaml"] =
      .error (.scalar (.calendar .month)) := by
  decide +kernel

end Formulary
