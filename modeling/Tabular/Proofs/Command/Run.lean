import Tabular.Command.Run
import Tabular.Proofs.Command.Action
import Tabular.Proofs.Outcome
import Tabular.Proofs.Store

/-!
# What a run leaves behind

A run that fails changes no file and prints nothing. One that writes its result changes one file, and in any
format but that of workbooks the file holds what the same command prints in that format, if it may print as it
would write at that path.
-/
namespace Tabular

variable {f : Format} {path : String} {bytes : ByteArray} {settings : Settings}

theorem fromUTF8?_toUTF8 (s : String) : String.fromUTF8? s.toUTF8 = some s := dif_pos s.isValidUTF8

/-- Both choices make the same of a table in a format: only CSV depends on its dialect. -/
def WriteOptions.AlikeIn (f : Format) (o o' : WriteOptions) : Prop :=
  o.sheet = o'.sheet ∧ o.precision = o'.precision ∧ (f = .csv → o.csv = o'.csv)

section Formats

variable {books : WorkbookLibrary} {t : Table} {summaries : List ColumnSummary} {options o o' : WriteOptions}

theorem Table.exists_text_of_encode (hf : f ≠ .workbook) (h : t.encode books f options = .ok bytes) :
    ∃ text : String, text.toUTF8 = bytes := by
  cases f with
  | workbook => exact absurd rfl hf
  | _ => exact ⟨_, Except.ok.inj h⟩

theorem Format.ensurePrintable_eq (hf : f ≠ .workbook) : f.ensurePrintable = .ok () := by
  rw [ensurePrintable, if_neg hf]

/-- All formats but that of workbooks are text. -/
theorem Table.render_of_encode (hf : f ≠ .workbook) (h : t.encode books f options = .ok bytes) :
    ∃ text, t.render books f options = .ok text ∧ text.toUTF8 = bytes := by
  obtain ⟨text, rfl⟩ := exists_text_of_encode hf h
  refine ⟨text, bind_eq_ok.mpr ⟨(), Format.ensurePrintable_eq hf, bind_eq_ok.mpr ⟨_, h, ?_⟩⟩, rfl⟩
  rw [fromUTF8?_toUTF8]
  rfl

theorem Table.encode_alike (h : o.AlikeIn f o') : t.encode books f o = t.encode books f o' := by
  obtain ⟨hsheet, hprecision, hcsv⟩ := h
  cases f with
  | csv => rw [encode, encode, hcsv rfl]
  | json => rfl
  | workbook => rw [encode, encode, hsheet]
  | markdown => rw [encode, encode, hprecision]
  | text => rw [encode, encode, hprecision]

theorem ColumnSummary.encode_alike (h : o.AlikeIn f o') :
    encode books summaries f o = encode books summaries f o' := by
  unfold ColumnSummary.encode
  split
  · rfl
  · simp only [Table.encode_alike h]

end Formats

namespace Settings

def forPath (settings : Settings) (path : String) : Settings :=
  { settings with csv := settings.csv.forPath path }

theorem dialect_eq_ok {csv : Csv.Dialect} :
    settings.dialect = .ok csv ↔ settings.csv.delimiter.toNat < 128 ∧ csv = settings.csv := by
  unfold dialect
  split
  next h =>
    constructor
    · intro hcsv
      cases hcsv
      exact ⟨h, rfl⟩
    · rintro ⟨-, rfl⟩
      rfl
  next h => exact ⟨nofun, fun hcsv => absurd hcsv.1 h⟩

theorem csv_forPath (settings : Settings) (path : String) :
    (settings.forPath path).csv = settings.csv.forPath path := by
  rw [forPath]

theorem dialect_forPath (h : settings.dialect = .ok settings.csv) (path : String) :
    (settings.forPath path).dialect = .ok (settings.csv.forPath path) := by
  refine dialect_eq_ok.mpr ⟨?_, (csv_forPath settings path).symm⟩
  rw [csv_forPath]
  unfold Csv.Dialect.forPath
  split
  · show '\t'.toNat < 128
    decide
  · exact (dialect_eq_ok.mp h).1

end Settings

theorem Csv.Dialect.forPath_eq (csv : Csv.Dialect) (h : Path.extension path ≠ "tsv") :
    csv.forPath path = csv := if_neg h

namespace Command

open Tabular.Action

variable {host : Host} {reading writing : Settings} {r : Route} {t : Table} {summaries : List ColumnSummary}
  {request : Request} {w w' : World}

def pathOptions (settings : Settings) (path : String) : WriteOptions :=
  ⟨none, settings.csv.forPath path, settings.precision⟩

theorem alikeIn_pathOptions (h : f = .csv → Path.extension path ≠ "tsv") :
    WriteOptions.AlikeIn f ⟨none, settings.csv, settings.precision⟩ (pathOptions settings path) := by
  refine ⟨rfl, rfl, fun hf => ?_⟩
  rw [pathOptions, Csv.Dialect.forPath_eq settings.csv (h hf)]

/-- The action leaves one file in the world, with what is encoded for its path, and prints nothing. -/
def WritesFile (settings : Settings) (r : Route) (path : String)
    (encode : Format → WriteOptions → Except Error ByteArray) (w w' : World) : Prop :=
  ∃ f bytes, r.fileFormat path = .ok f ∧ encode f (pathOptions settings path) = .ok bytes ∧
    w.store.write? path bytes = some w'.store ∧ w'.output = w.output

theorem writeOptions_forPath (h : settings.dialect = .ok settings.csv) (path : String) :
    writeOptions (settings.forPath path) = .ok (pathOptions settings path) := by
  rw [writeOptions, Settings.dialect_forPath h, pathOptions, Settings.forPath]
  rfl

theorem writeOptions_eq_ok : writeOptions settings = .ok options ↔
    settings.dialect = .ok settings.csv ∧ options = ⟨none, settings.csv, settings.precision⟩ := by
  constructor
  · intro h
    obtain ⟨csv, hcsv, h⟩ := bind_eq_ok.mp h
    obtain ⟨-, rfl⟩ := Settings.dialect_eq_ok.mp hcsv
    exact ⟨hcsv, (Except.ok.inj h).symm⟩
  · rintro ⟨hcsv, rfl⟩
    exact bind_eq_ok.mpr ⟨_, hcsv, rfl⟩

theorem store_of_writing {what : String}
    (h : (do writeFile path bytes; note (writtenNote what path) : Action Unit).Gives w () w') :
    w.store.write? path bytes = some w'.store ∧ w'.output = w.output := by
  obtain ⟨⟨⟩, w₁, hwrite, hnote⟩ := gives_bind.mp h
  obtain ⟨store, hstore, rfl⟩ := gives_writeFile.mp hwrite
  obtain rfl := gives_note.mp hnote
  exact ⟨hstore, rfl⟩

theorem writesFile_of_emit (hr : r.output = some path) (h : (emit host settings r t).Gives w () w') :
    WritesFile settings r path (t.encode host.books) w w' := by
  unfold emit at h
  obtain ⟨options, hoptions, h⟩ := gives_lift_bind.mp h
  obtain ⟨-, rfl⟩ := writeOptions_eq_ok.mp hoptions
  rw [hr] at h
  obtain ⟨f, hf, h⟩ := gives_lift_bind.mp h
  obtain ⟨bytes, hbytes, h⟩ := gives_lift_bind.mp h
  refine ⟨f, bytes, hf, (Table.encode_alike ?_).trans hbytes, store_of_writing h⟩
  split
  · exact ⟨rfl, rfl, fun _ => rfl⟩
  next hcsv => exact ⟨rfl, rfl, fun h => absurd h hcsv⟩

theorem writesFile_of_emitSummary (hr : r.output = some path)
    (h : (emitSummary host settings r summaries).Gives w () w') :
    WritesFile settings r path (ColumnSummary.encode host.books summaries) w w' := by
  unfold emitSummary at h
  obtain ⟨options, hoptions, h⟩ := gives_lift_bind.mp h
  obtain ⟨-, rfl⟩ := writeOptions_eq_ok.mp hoptions
  rw [hr] at h
  obtain ⟨f, hf, h⟩ := gives_lift_bind.mp h
  obtain ⟨bytes, hbytes, h⟩ := gives_lift_bind.mp h
  exact ⟨f, bytes, hf, hbytes, store_of_writing h⟩

/-- What would go into a file goes onto the screen. -/
theorem emit_printing (hf : f ≠ .workbook) (hoptions : writeOptions settings = .ok options)
    (h : t.encode host.books f options = .ok bytes) :
    (emit host settings (r.printing f) t).Gives w () (w.printed bytes) := by
  obtain ⟨text, htext, rfl⟩ := Table.render_of_encode hf h
  refine gives_lift_bind.mpr ⟨options, hoptions, ?_⟩
  exact gives_lift_bind.mpr ⟨text, htext, gives_print.mpr rfl⟩

theorem emitSummary_printing (hf : f ≠ .workbook) (hoptions : writeOptions settings = .ok options)
    (h : ColumnSummary.encode host.books summaries f options = .ok bytes) :
    (emitSummary host settings (r.printing f) summaries).Gives w () (w.printed bytes) := by
  refine gives_lift_bind.mpr ⟨options, hoptions, ?_⟩
  refine gives_lift_bind.mpr ⟨(), Format.ensurePrintable_eq hf, ?_⟩
  exact gives_lift_bind.mpr ⟨bytes, h, gives_print.mpr rfl⟩

theorem gives_load : (load host settings r).Gives w t w' ↔ w' = w ∧ settings.dialect = .ok settings.csv ∧
    Table.load host.books w.store.lookup r.input none ⟨r.sheet, settings.csv⟩ = .ok t := by
  rw [load, gives_lift_bind]
  constructor
  · rintro ⟨csv, hcsv, h⟩
    obtain ⟨lookup, w₁, hlook, h⟩ := gives_bind.mp h
    obtain ⟨rfl, rfl⟩ := gives_look.mp hlook
    obtain ⟨ht, rfl⟩ := gives_lift.mp h
    obtain ⟨-, rfl⟩ := Settings.dialect_eq_ok.mp hcsv
    exact ⟨rfl, hcsv, ht⟩
  · rintro ⟨rfl, hcsv, ht⟩
    exact ⟨_, hcsv, gives_bind.mpr ⟨_, w', gives_look.mpr ⟨rfl, rfl⟩, gives_lift.mpr ⟨ht, rfl⟩⟩⟩

/-- Loading depends on the input only, and leaves the world as it is. -/
theorem gives_load_bind {k : Table → Action Unit} : (load host settings r >>= k).Gives w () w' ↔
    ∃ t, (settings.dialect = .ok settings.csv ∧
      Table.load host.books w.store.lookup r.input none ⟨r.sheet, settings.csv⟩ = .ok t) ∧
        (k t).Gives w () w' := by
  rw [gives_bind]
  constructor
  · rintro ⟨t, w₁, hload, h⟩
    obtain ⟨rfl, hload⟩ := gives_load.mp hload
    exact ⟨t, hload, h⟩
  · rintro ⟨t, hload, h⟩
    exact ⟨t, w, gives_load.mpr ⟨rfl, hload⟩, h⟩

/-- Only `convert` looks at where its result goes, and it accepts any format. -/
theorem steps_printing {command : TableCommand} {steps : List Step} (h : command.steps r = .ok steps) :
    command.steps (r.printing f) = .ok steps := by
  cases command with
  | convert =>
    rw [TableCommand.steps] at h ⊢
    rw [if_neg fun hnone => nomatch hnone.2]
    split at h
    · cases h
    · exact h
  | _ => exact h

/-- What a request writes into a file, it prints if its result is to go onto the screen and is to be written
alike. -/
theorem perform_output (hroute : request.tableRoute? = some r) (hr : r.output = some path)
    (h : (perform host settings request).Gives w () w') :
    ∃ f bytes, settings.dialect = .ok settings.csv ∧ r.fileFormat path = .ok f ∧
      w.store.write? path bytes = some w'.store ∧ w'.output = w.output ∧
      (f ≠ .workbook → ∀ writing options, writeOptions writing = .ok options →
        options.AlikeIn f (pathOptions settings path) →
        (performWith host settings writing (request.printing f)).Gives w () (w.printed bytes)) := by
  cases request with
  | table route command =>
    cases hroute
    rw [perform, performWith, gives_lift_bind] at h
    obtain ⟨steps, hsteps, h⟩ := h
    rw [transform, gives_load_bind] at h
    obtain ⟨loaded, ⟨hcsv, hload⟩, h⟩ := h
    obtain ⟨t, ht, hemit⟩ := gives_lift_bind.mp h
    obtain ⟨f, bytes, hf, hbytes, hstore, houtput⟩ := writesFile_of_emit hr hemit
    refine ⟨f, bytes, hcsv, hf, hstore, houtput, fun hworkbook writing options hoptions halike => ?_⟩
    rw [Request.printing, performWith, gives_lift_bind]
    refine ⟨steps, steps_printing hsteps, ?_⟩
    rw [transform, gives_load_bind]
    refine ⟨loaded, ⟨hcsv, hload⟩, gives_lift_bind.mpr ⟨t, ht, ?_⟩⟩
    exact emit_printing hworkbook hoptions ((Table.encode_alike halike).trans hbytes)
  | describe route =>
    cases hroute
    rw [perform, performWith, gives_load_bind] at h
    obtain ⟨loaded, ⟨hcsv, hload⟩, hemit⟩ := h
    obtain ⟨f, bytes, hf, hbytes, hstore, houtput⟩ := writesFile_of_emitSummary hr hemit
    refine ⟨f, bytes, hcsv, hf, hstore, houtput, fun hworkbook writing options hoptions halike => ?_⟩
    rw [Request.printing, performWith, gives_load_bind]
    refine ⟨loaded, ⟨hcsv, hload⟩, ?_⟩
    exact emitSummary_printing hworkbook hoptions ((ColumnSummary.encode_alike halike).trans hbytes)
  | formula => cases hroute
  | sheets => cases hroute

theorem silent_load (settings : Settings) (r : Route) : (load host settings r).Silent :=
  (silent_lift _).bind fun _ => silent_look.bind fun _ => silent_lift _

theorem traceless_writing (path what : String) (bytes : ByteArray) :
    (do writeFile path bytes; note (writtenNote what path) : Action Unit).Traceless :=
  (Traceless.writeFile path bytes).before fun _ => unfailing_note _

theorem traceless_emit (settings : Settings) (r : Route) (t : Table) : (emit host settings r t).Traceless := by
  refine .after (silent_lift _) fun options => ?_
  split
  · exact .after (silent_lift _) fun f => .after (silent_lift _) fun bytes => traceless_writing _ _ bytes
  · exact .after (silent_lift _) fun text => .of_unfailing (unfailing_print _)

theorem traceless_emitSummary (settings : Settings) (r : Route) (summaries : List ColumnSummary) :
    (emitSummary host settings r summaries).Traceless := by
  refine .after (silent_lift _) fun options => ?_
  split
  · exact .after (silent_lift _) fun f => .after (silent_lift _) fun bytes => traceless_writing _ _ bytes
  · refine .after (silent_lift _) fun _ => .after (silent_lift _) fun bytes => ?_
    exact .of_unfailing (unfailing_print bytes)

theorem traceless_transform (reading writing : Settings) (r : Route) (steps : List Step) :
    (transform host reading writing r steps).Traceless :=
  .after (silent_load _ _) fun _ => .after (silent_lift _) fun t => traceless_emit writing r t

theorem traceless_evaluate (reading writing : Settings) (r : Route) (formula : String) (cell : Option String) :
    (evaluate host reading writing r formula cell).Traceless := by
  unfold evaluate
  split
  · exact traceless_transform _ _ _ _
  · exact .throw _
  · refine .after (silent_load _ _) fun t => .after (silent_lift _) fun row => ?_
    exact .of_unfailing (unfailing_print _)

/-- A request does nothing visible before it has come to its last step that can fail. -/
theorem traceless_performWith (reading writing : Settings) (request : Request) :
    (performWith host reading writing request).Traceless := by
  cases request with
  | table r command => exact .after (silent_lift _) fun steps => traceless_transform _ _ _ steps
  | formula r formula cell => exact traceless_evaluate _ _ r formula cell
  | describe r => exact .after (silent_load _ _) fun t => traceless_emitSummary _ _ _
  | sheets input =>
    refine .after silent_look fun lookup => .after (silent_lift _) fun names => ?_
    exact .of_unfailing ((unfailing_note _).bind fun _ => unfailing_print _)

variable {environment : Option String} {args : List String} {source : Option String}

theorem run_request (hreading : host.arguments environment args = .request source request)
    (hsettings : loadSettings host w.store.lookup source = .ok settings) :
    (run host environment args).run w = match (perform host settings request).run.run w with
      | (.ok (), w') => (0, w')
      | (.error e, w') => (1, w'.noted ("Error: " ++ e.message ++ "\n")) := by
  unfold run
  simp only [hreading, StateT.run_bind, StateT.run_get, pure_bind, hsettings]
  generalize (perform host settings request).run.run w = result
  obtain ⟨r, w'⟩ := result
  cases r <;> rfl

theorem run_unsettled {e : Error} (hreading : host.arguments environment args = .request source request)
    (hsettings : loadSettings host w.store.lookup source = .error e) :
    (run host environment args).run w =
      (1, w.noted ("Error: Failed to load config\n\nCaused by:\n    " ++ e.message ++ "\n")) := by
  unfold run
  simp only [hreading, StateT.run_bind, StateT.run_get, pure_bind, hsettings]
  rfl

theorem run_of_gives (hreading : host.arguments environment args = .request source request)
    (hsettings : loadSettings host w.store.lookup source = .ok settings)
    (h : (perform host settings request).Gives w () w') : (run host environment args).run w = (0, w') := by
  rw [run_request hreading hsettings, h]

/-- A run that fails leaves no trace. -/
theorem run_failed (h : ((run host environment args).run w).1 ≠ 0) :
    ((run host environment args).run w).2.store = w.store ∧
      ((run host environment args).run w).2.output = w.output := by
  cases hreading : host.arguments environment args with
  | answered text =>
    rw [run, hreading] at h
    exact absurd rfl h
  | misused note =>
    rw [run, hreading]
    exact ⟨rfl, rfl⟩
  | request source request =>
    cases hsettings : loadSettings host w.store.lookup source with
    | error e =>
      rw [run_unsettled hreading hsettings]
      exact ⟨rfl, rfl⟩
    | ok settings =>
      rw [run_request hreading hsettings] at h ⊢
      cases hresult : (perform host settings request).run.run w with
      | mk result w' =>
        rw [hresult] at h
        cases result with
        | ok => exact absurd rfl h
        | error e => exact traceless_performWith settings settings request w e w' hresult

/-- A request is carried out in a run that does not fail. -/
theorem gives_of_run (hreading : host.arguments environment args = .request source request)
    (h : ((run host environment args).run w).1 = 0) :
    ∃ settings, loadSettings host w.store.lookup source = .ok settings ∧
      (perform host settings request).Gives w () ((run host environment args).run w).2 := by
  cases hsettings : loadSettings host w.store.lookup source with
  | error e =>
    rw [run_unsettled hreading hsettings] at h
    cases h
  | ok settings =>
    refine ⟨settings, rfl, ?_⟩
    rw [run_request hreading hsettings] at h ⊢
    rw [Gives]
    cases hresult : (perform host settings request).run.run w with
    | mk result w' =>
      rw [hresult] at h
      cases result with
      | ok => rfl
      | error e => cases h

/-- A run that fails leaves the store as it is and prints nothing. A run that writes a table or its statistics
changes no file but the one at the path of its output, and if that is no workbook, it holds what the same
request prints in the same format, with tabs for a delimiter if the path asks for them. -/
theorem run_output (host : Host) (environment : Option String) (args : List String) (w : World) :
    (((run host environment args).run w).1 ≠ 0 →
      ((run host environment args).run w).2.store = w.store ∧
        ((run host environment args).run w).2.output = w.output) ∧
    ∀ source request r path, host.arguments environment args = .request source request →
      request.tableRoute? = some r → r.output = some path → ((run host environment args).run w).1 = 0 →
      ∃ settings f bytes, loadSettings host w.store.lookup source = .ok settings ∧ r.fileFormat path = .ok f ∧
        w.store.Differs path bytes ((run host environment args).run w).2.store ∧
        ((run host environment args).run w).2.output = w.output ∧
        (f ≠ .workbook →
          (performWith host settings (settings.forPath path) (request.printing f)).Gives w () (w.printed bytes) ∧
          ((f = .csv → Path.extension path ≠ "tsv") → ∀ environment' args',
            host.arguments environment' args' = .request source (request.printing f) →
              (run host environment' args').run w = (0, w.printed bytes))) := by
  refine ⟨run_failed, fun source request r path hreading hroute hr hzero => ?_⟩
  obtain ⟨settings, hsettings, hgives⟩ := gives_of_run hreading hzero
  obtain ⟨f, bytes, hcsv, hf, hwrite, houtput, hprint⟩ := perform_output hroute hr hgives
  refine ⟨settings, f, bytes, hsettings, hf, Store.differs_of_write? hwrite, houtput, fun hworkbook => ⟨?_, ?_⟩⟩
  · exact hprint hworkbook _ _ (writeOptions_forPath hcsv path) ⟨rfl, rfl, fun _ => rfl⟩
  · intro htsv environment' args' hreading'
    have hoptions := writeOptions_eq_ok.mpr ⟨hcsv, rfl⟩
    exact run_of_gives hreading' hsettings (hprint hworkbook _ _ hoptions (alikeIn_pathOptions htsv))

/-- A world with one table of towns in the current directory. -/
def towns : World := ⟨⟨["work"], [(["work"], .directory),
  (["work", "towns.csv"], .file "name,size\nUlm,3\n".toUTF8)]⟩, .empty, ""⟩

def copying : Request := .table ⟨"towns.csv", some "../work/first.csv", none, none⟩ (.head 10)

/-- Reads two command lines, and has no use for YAML and workbooks. -/
def townsHost : Host where
  arguments _ args :=
    if args = ["head", "-i", "towns.csv", "-o", "../work/first.csv"] then .request none copying
    else if args = ["head", "-i", "towns.csv", "-f", "csv"] then .request none (copying.printing .csv)
    else .misused "Usage: cellforge [OPTIONS] <COMMAND>\n"
  yaml _ := .error "not read"
  books := ⟨fun _ _ => .error "not read", fun _ _ => none, fun _ => .error "not written"⟩

theorem run_towns :
    (((run townsHost none []).run towns).1 ≠ 0 ∧
      ((run townsHost none []).run towns).2.store = towns.store ∧
      ((run townsHost none []).run towns).2.output = towns.output) ∧
    ((run townsHost none ["head", "-i", "towns.csv", "-o", "../work/first.csv"]).run towns).1 = 0 ∧
    ∃ bytes,
      towns.store.Differs "../work/first.csv" bytes
        ((run townsHost none ["head", "-i", "towns.csv", "-o", "../work/first.csv"]).run towns).2.store ∧
      (run townsHost none ["head", "-i", "towns.csv", "-f", "csv"]).run towns = (0, towns.printed bytes) := by
  have hmisused : ((run townsHost none []).run towns).1 ≠ 0 := by decide +kernel
  have hdone : ((run townsHost none ["head", "-i", "towns.csv", "-o", "../work/first.csv"]).run towns).1 = 0 := by
    decide +kernel
  refine ⟨⟨hmisused, (run_output townsHost none [] towns).1 hmisused⟩, hdone, ?_⟩
  obtain ⟨settings, f, bytes, -, hf, hstore, -, hprint⟩ :=
    (run_output townsHost none _ towns).2 none copying _ "../work/first.csv" rfl rfl rfl hdone
  obtain rfl : f = .csv := by
    have hcsv : Format.ofPath "../work/first.csv" = .ok .csv := by decide +kernel
    exact Except.ok.inj (hf.symm.trans hcsv)
  have hcsv : Path.extension "../work/first.csv" ≠ "tsv" := by decide +kernel
  exact ⟨bytes, hstore, (hprint nofun).2 (fun _ => hcsv) none _ rfl⟩

end Command

end Tabular
