import TimingReport.Proofs.Input.Bytes
import TimingReport.Proofs.Input.Legible
import TimingReport.Proofs.Load.Texts
import TimingReport.Proofs.Load.Written
import TimingReport.Proofs.Session.Stages
import TimingReport.Proofs.Text.Utf8

/-!
# Ways to load a run

A run is loaded from a text, from the bytes of a reader, or from a file. Bytes are read one by
one, and only where a text is taken from them they are checked, while the characters of a text
need no check. Yet the bytes of a text are loaded as the text is, and a file as its bytes are.
Other bytes are loaded, too, as long as those that are no text lie where nothing is read.
-/

namespace TimingReport

open Json Text

/-- The names that a run shows. -/
def Run.texts (run : Run) : List String :=
  run.machine.hostName :: run.machine.cpuName :: run.records.map Record.name

theorem Store.read_of_get? {store : Store} {path : String} {location : Location}
    {bytes : List UInt8} (hlocation : store.locate path = .ok location)
    (hfile : store.get? location = some (.file bytes))
    (hread : store.attempt .read path = .ok ()) : store.read path = .ok bytes := by
  rw [Store.read, hlocation]
  simp only [bind, Except.bind, hfile, hread]
  rfl

theorem Job.loaded_eq_ofBytes {store : Store} {path : String} {bytes : List UInt8}
    (hcontent : store.read path = .ok bytes) : loaded store path = Load.ofBytes path bytes :=
  congrArg Outcome.result (does_load_bytes hcontent).outcome_eq

namespace Load

/-- Reading byte by byte comes to what reading the symbols of the bytes comes to. -/
theorem ofBytes_eq_ofSymbols (source : String) (bytes : List UInt8) :
    ofBytes source bytes = ofSymbols source (Utf8.symbols bytes) := by
  unfold ofBytes ofSymbols
  rw [Input.Document.ofSymbols_bytes]

theorem ofBytes_encode (source text : String) :
    ofBytes source (Utf8.encode text) = ofText source text := by
  rw [ofBytes_eq_ofSymbols, Utf8.symbols_encode, ofText]

/-- A name is shown as it is given, or as unknown. -/
theorem Shows.eq_or_mem {name : Option String} {shown : String} {given : List String}
    (hshows : Shows name shown) (hname : name.toList ⊆ given) :
    shown = unknownName ∨ shown ∈ given := by
  cases hshows with
  | given => exact .inr (hname (List.mem_singleton.mpr rfl))
  | blank => exact .inl rfl
  | absent => exact .inl rfl

theorem texts_of_run {source : String} {document : Input.Document} {loaded : Run}
    (hrun : run source document = .ok loaded) {text : String} (htext : text ∈ loaded.texts) :
    text = unknownName ∨ text ∈ document.full.texts := by
  obtain ⟨-, hrecords, hmachine, -⟩ := run_eq_ok_iff.mp hrun
  obtain ⟨context, benchmarks⟩ := document
  rw [Run.texts, hmachine] at htext
  rcases List.mem_cons.mp htext with rfl | htext
  · refine (shows_nameOr _).eq_or_mem ?_
    cases context with
    | none => exact List.nil_subset _
    | some context => simp [Input.Document.full, Input.Partial.texts, Input.Context.texts]
  rcases List.mem_cons.mp htext with rfl | htext
  · refine (shows_nameOr _).eq_or_mem ?_
    rcases context with _ | ⟨hostName, _ | cpu, cpuCount⟩
    · exact List.nil_subset _
    · exact List.nil_subset _
    · simp [Input.Document.full, Input.Partial.texts, Input.Context.texts, Input.Cpu.texts]
  · obtain ⟨record, hrecord, rfl⟩ := List.mem_map.mp htext
    obtain ⟨entry, hentry, hloads⟩ := exists_mem_of_forall₂ hrecords.flip hrecord
    refine hloads.name.eq_or_mem fun name hname => ?_
    have hgiven : name ∈ benchmarks.flatMap Input.Entry.texts :=
      List.mem_flatMap.mpr ⟨entry, hentry, hname⟩
    simp [Input.Document.full, Input.Partial.texts, hgiven]

/-- The ways to load a run agree. A file that can be read and holds the bytes of a text is loaded
as a reader of these bytes is, and that one as the text is, with the same run or the same fault.
Whatever bytes a reader gives, if a run is loaded, those that are no text lie in strings that are
passed over, and a string of the document spells each name of the run that is not unknown. -/
theorem ways_agree (path : String) :
    (∀ {store : Store} {location : Location} {text : String},
      store.locate path = .ok location →
        store.get? location = some (.file (Utf8.encode text)) →
          store.device.fault? .read path = none →
            Job.loaded store path = ofReader path (.ok (Utf8.encode text)) ∧
              ofReader path (.ok (Utf8.encode text)) = ofText path text) ∧
    ∀ {bytes : List UInt8} {loaded : Run}, ofReader path (.ok bytes) = .ok loaded →
      Input.Document.IsLegible (Utf8.symbols bytes) ∧
        ∀ text ∈ loaded.texts, text = unknownName ∨ SpelledIn (Utf8.symbols bytes) text := by
  constructor
  · intro store location text hlocation hfile hdevice
    have hread : store.attempt .read path = .ok () := by rw [Store.attempt, hdevice]
    have hcontent := Store.read_of_get? hlocation hfile hread
    exact ⟨Job.loaded_eq_ofBytes hcontent, ofBytes_encode path text⟩
  · intro bytes loaded hloaded
    have hsymbols := (ofBytes_eq_ofSymbols path bytes).symm.trans hloaded
    obtain ⟨document, hdocument, hrun⟩ := ofSymbols_eq_ok_iff.mp hsymbols
    refine ⟨Input.Document.isLegible hdocument, fun text htext => ?_⟩
    rcases texts_of_run hrun htext with hunknown | hgiven
    · exact .inl hunknown
    · exact .inr (Input.Document.spelledIn hdocument hgiven)

/-- A member that is passed over may hold a byte that is no text. -/
theorem ways_agree_skipped_byte :
    let text := "\x7b\"benchmarks\":[\x7b\"name\":\"a\",\"real_time\":1\x7d]\x7d"
    let store := (Store.empty ["home"]).withFile "run.json" (Utf8.encode text)
    let bytes := Utf8.encode "\x7b\"x\":[\"" ++ 0xFF :: Utf8.encode ("\"]," ++
      "\"benchmarks\":[\x7b\"name\":\"a\",\"real_time\":1\x7d]\x7d")
    let run : Run := {
      records := [{ name := "a", realTime := .ofNat 1 }]
      source := "run.json" }
    Job.loaded store "run.json" = .ok run ∧
      ofReader "run.json" (.ok (Utf8.encode text)) = .ok run ∧
      Utf8.decode? bytes = none ∧ ofReader "run.json" (.ok bytes) = .ok run ∧
      Input.Document.IsLegible (Utf8.symbols bytes) ∧ SpelledIn (Utf8.symbols bytes) "a" := by
  intro text store bytes run
  have hlocation : (store.locate "run.json").toOption = some ["home", "run.json"] := by
    decide +kernel
  have hfile : store.get? ["home", "run.json"] = some (.file (Utf8.encode text)) := by
    decide +kernel
  have hload : (ofText "run.json" text).toOption = some run := by decide +kernel
  have hbytes : (ofReader "run.json" (.ok bytes)).toOption = some run := by decide +kernel
  have hload := Outcome.toOption_eq_some_iff.mp hload
  have hbytes := Outcome.toOption_eq_some_iff.mp hbytes
  obtain ⟨hsame, hlegible⟩ := ways_agree "run.json"
  obtain ⟨hstore, hencoded⟩ := hsame (Outcome.toOption_eq_some_iff.mp hlocation) hfile rfl
  obtain ⟨hdocument, htexts⟩ := hlegible hbytes
  refine ⟨hstore.trans (hencoded.trans hload), hencoded.trans hload, by decide +kernel, hbytes,
    hdocument, ?_⟩
  refine (htexts "a" ?_).resolve_left (by decide)
  simp [Run.texts, run]

end Load

end TimingReport
