import TimingReport.Input
import TimingReport.Proofs.Json.ByteShapes

/-!
# Documents in both media

Whatever bytes are given, they are read as the same document as their characters are, or refused
with the same fault.
-/

namespace TimingReport.Input

open Json

variable {σ : Type}

theorem alike_count32 : Alike (@count32 .bytes) count32 :=
  fun _ _ h => (alike_natural 32 h).map fun hab => ⟨congrArg UInt32.ofNat hab.1, hab.2⟩

theorem alike_count64 : Alike (@count64 .bytes) count64 :=
  fun _ _ h => (alike_natural 64 h).map fun hab => ⟨congrArg UInt64.ofNat hab.1, hab.2⟩

theorem alike_record {bytes text : List (Json.Field σ)} (hsame : SameFields bytes text)
    (wanted : String) (empty : σ) :
    Alike (@record .bytes σ wanted bytes empty) (record wanted text empty) := by
  intro u v h
  refine (hsame.record wanted empty h).map ?_
  rintro ⟨⟨r, _⟩, _⟩ ⟨⟨_, _⟩, _⟩ ⟨hr, hrest⟩
  cases hr
  exact ⟨rfl, hrest⟩

theorem Cpu.sameFields : SameFields (@Cpu.fields .bytes) Cpu.fields :=
  .cons (alike_text.field _) (.cons (alike_count32.field _) .nil)

theorem Context.sameFields : SameFields (@Context.fields .bytes) Context.fields :=
  .cons (alike_text.field _) (.cons ((alike_record Cpu.sameFields _ _).field _)
    (.cons (alike_count32.field _) .nil))

theorem Entry.sameFields : SameFields (@Entry.fields .bytes) Entry.fields :=
  .cons (alike_text.field _) (.cons (alike_real.field _) (.cons (alike_real.field _)
    (.cons (alike_count64.field _) (.cons (alike_real.field _)
      (.cons (alike_text.field _) .nil)))))

theorem Partial.sameFields : SameFields (@Partial.fields .bytes) Partial.fields := by
  have hentries := (alike_record Entry.sameFields "struct RawRecord" {}).list
  refine .cons ((alike_record Context.sameFields _ _).field _) (.cons ⟨rfl, ?_⟩ .nil)
  intro r u v h
  exact (hentries h).map fun hab =>
    ⟨congrArg (fun entries => { r with benchmarks := some entries }) hab.1, hab.2⟩

theorem alike_document : Alike (@Document.read .bytes) Document.read := by
  intro u v h
  have hread := Partial.sameFields.record "struct RawResults" {} h
  unfold Document.read
  generalize @Json.record .bytes _ _ _ _ u = x at hread
  generalize Json.record _ _ _ v = y at hread
  rcases hread with fault | @⟨⟨⟨⟨context, _ | benchmarks⟩, form⟩, _⟩, ⟨_, _⟩, rfl, hrest⟩
  · exact .error fault
  · cases form <;> exact .error _
  · exact .ok ⟨rfl, hrest⟩

/-- Bytes are read as the document that their characters are. -/
theorem Document.ofSymbols_bytes (bytes : List UInt8) :
    @ofSymbols .bytes (bytes.map ofByte) = ofSymbols (Text.Utf8.symbols bytes) :=
  alike_document.document ⟨bytes, rfl, rfl⟩

end TimingReport.Input
