import Mathlib.Data.List.Forall2
import TimingReport.Proofs.Json.ByteStrings

/-!
# Values of a wanted shape in both media

Readers of lists and records are alike in both media if the readers of their parts are. They have
the same fuel in both, since it is counted in bytes.
-/

namespace TimingReport.Json

open Text.Utf8

variable {α σ : Type} {u v : Symbols}

theorem width_agree (h : Decodes u v) : @Medium.width .bytes u = Medium.width v := by
  obtain ⟨bytes, rfl, rfl⟩ := h
  exact (List.length_map _).trans (width_symbols bytes).symm

/-! ## Single values -/

theorem mismatchLiteral_agree {literal : List Char} (hliteral : ∀ c ∈ literal, c.toNat < 0x80)
    (found : Found) (wanted : String) (h : Decodes u v) :
    (match readLiteral literal u with
      | .ok _ => Fault.wrongType found wanted
      | .error fault => fault) =
    match readLiteral literal v with
      | .ok _ => Fault.wrongType found wanted
      | .error fault => fault := by
  have hagrees := readLiteral_agrees literal hliteral h
  generalize readLiteral literal u = x at hagrees
  generalize readLiteral literal v = y at hagrees
  cases hagrees <;> rfl

/-- What stands in the place of a wanted value is named alike. -/
theorem mismatch_agree (wanted : String) (h : Decodes u v) :
    @mismatch .bytes wanted u = mismatch wanted v := by
  cases h.fronts with
  | nil => rfl
  | @cons s t u v hheads =>
      rcases hheads.is 'n' (by decide) with ⟨rfl, rfl, hrest⟩ | hnull
      · exact mismatchLiteral_agree (by simp) _ _ hrest
      rcases hheads.is 't' (by decide) with ⟨rfl, rfl, hrest⟩ | htrue
      · exact mismatchLiteral_agree (by simp) _ _ hrest
      rcases hheads.is 'f' (by decide) with ⟨rfl, rfl, hrest⟩ | hfalse
      · exact mismatchLiteral_agree (by simp) _ _ hrest
      rcases hheads.is '"' (by decide) with ⟨rfl, rfl, hrest⟩ | hquote
      · have hstring := alike_readString hrest
        simp only [mismatch]
        generalize @readString .bytes u = x at hstring
        generalize readString v = y at hstring
        rcases hstring with fault | @⟨⟨text, _⟩, ⟨_, _⟩, rfl, _⟩
        · rfl
        · rfl
      rcases hheads.is '[' (by decide) with ⟨rfl, rfl, hrest⟩ | hlist
      · rfl
      rcases hheads.is '\x7b' (by decide) with ⟨rfl, rfl, hrest⟩ | hobject
      · rfl
      have hnumber := alike_readNumber h
      generalize hx : readNumber (s :: u) = x at hnumber
      generalize hy : readNumber (t :: v) = y at hnumber
      have hdigit : isDigit s = isDigit t ∧ (s = some '-' ↔ t = some '-') := by
        cases hheads with
        | ascii => exact ⟨rfl, Iff.rfl⟩
        | foreign hs ht =>
            simp [isAscii_isDigit hs, isAscii_isDigit ht, hs.ne, ht.ne]
      rcases hnumber with fault | @⟨⟨n | n, _⟩, ⟨_, _⟩, rfl, _⟩
      all_goals simp [mismatch, hx, hy, hnull, htrue, hfalse, hquote, hlist, hobject, hdigit]

theorem alike_text : Alike (@text .bytes) text := by
  intro u v h
  have hblank := h.skipBlank
  unfold text
  generalize skipBlank u = u at hblank
  generalize skipBlank v = v at hblank
  have hmismatch := mismatch_agree "a string" hblank
  cases hblank.fronts with
  | nil => exact .error .endInValue
  | cons hheads =>
      rcases hheads.is '"' (by decide) with ⟨rfl, rfl, hrest⟩ | ⟨hs, ht⟩
      · exact alike_readString hrest
      · simpa [hs, ht, hmismatch] using .error _

theorem alike_number (wanted : String) : Alike (@number .bytes wanted) (number wanted) := by
  intro u v h
  have hblank := h.skipBlank
  unfold number
  generalize skipBlank u = u at hblank
  generalize skipBlank v = v at hblank
  have hmismatch := mismatch_agree wanted hblank
  have hnumber := alike_readNumber hblank
  cases hblank.fronts with
  | nil => exact .error _
  | cons hheads =>
      dsimp only
      cases hheads with
      | ascii hascii hrest =>
          split_ifs
          · exact hnumber
          · exact hmismatch ▸ .error _
      | foreign hs ht =>
          simpa [isAscii_isDigit hs, isAscii_isDigit ht, hs.ne, ht.ne, hmismatch] using .error _

theorem alike_real : Alike (@real .bytes) real := by
  intro u v h
  refine (alike_number "f64" h).bind ?_
  rintro ⟨n | x, u'⟩ ⟨_, v'⟩ ⟨rfl, hrest⟩
  · exact .ok ⟨rfl, hrest⟩
  · exact .ok ⟨rfl, hrest⟩

theorem alike_natural (bits : Nat) : Alike (@natural .bytes bits) (natural bits) := by
  intro u v h
  refine (alike_number _ h).bind ?_
  rintro ⟨n | x, u'⟩ ⟨_, v'⟩ ⟨rfl, hrest⟩
  · dsimp only
    split_ifs
    · exact .ok ⟨rfl, hrest⟩
    · exact .error _
  · exact .error _

theorem Alike.optional {bytes text : Reader α} (halike : Alike bytes text) :
    Alike (optional bytes) (optional text) := by
  intro u v h
  have hblank := h.skipBlank
  unfold Json.optional
  generalize skipBlank u = u at hblank
  generalize skipBlank v = v at hblank
  have hsome : Agrees Along ((bytes u).map fun read => (some read.1, read.2))
      ((text v).map fun read => (some read.1, read.2)) :=
    (halike hblank).map fun hab => ⟨congrArg some hab.1, hab.2⟩
  cases hblank.fronts with
  | nil => exact hsome
  | cons hheads =>
      rcases hheads.is 'n' (by decide) with ⟨rfl, rfl, hrest⟩ | ⟨hs, ht⟩
      · exact (readLiteral_agrees _ (by simp) hrest).bind fun hrest => .ok ⟨rfl, hrest⟩
      · simpa [hs, ht] using hsome

/-! ## Lists -/

/-- The next element starts at the same place of the document, or the bracket closes there. -/
inductive SameNext : NextElement → NextElement → Prop
  | starts {u v : Symbols} (h : Decodes u v) : SameNext (.starts u) (.starts v)
  | closed {u v : Symbols} (h : Decodes u v) : SameNext (.closed u) (.closed v)

theorem nextElement_agrees (first : Bool) (h : Decodes u v) :
    Agrees SameNext (nextElement first u) (nextElement first v) := by
  have hblank := h.skipBlank
  unfold nextElement
  generalize skipBlank u = u at hblank
  generalize skipBlank v = v at hblank
  cases hblank.fronts with
  | nil => exact .error _
  | @cons s t u v hheads =>
      rcases hheads.is ']' (by decide) with ⟨rfl, rfl, hrest⟩ | ⟨hs, ht⟩
      · exact .ok (.closed hrest)
      cases first with
      | true => simpa [hs, ht] using .ok (.starts hblank)
      | false =>
          rcases hheads.is ',' (by decide) with ⟨rfl, rfl, hrest⟩ | ⟨hcomma, hcomma'⟩
          · have hnext := hrest.skipBlank
            simp only [Bool.false_eq_true, if_false, if_true]
            generalize skipBlank u = u at hnext
            generalize skipBlank v = v at hnext
            cases hnext.fronts with
            | nil => exact .error _
            | cons hheads =>
                rcases hheads.is ']' (by decide) with ⟨rfl, rfl, -⟩ | ⟨hs, ht⟩
                · exact .error _
                · simpa [hs, ht] using .ok (.starts hnext)
          · simpa [hs, ht, hcomma, hcomma'] using .error _

/-- The elements of a list are read alike, by induction on the fuel. -/
theorem Alike.readElements {bytes text : Reader α} (halike : Alike bytes text) (read : List α)
    (fuel : Nat) (first : Bool) :
    Alike (readElements bytes read fuel first) (readElements text read fuel first) := by
  intro u v h
  induction fuel generalizing read first u v with
  | zero => exact .error _
  | succ fuel ih =>
      have hnext := nextElement_agrees first h
      unfold Json.readElements
      generalize nextElement first u = x at hnext
      generalize nextElement first v = y at hnext
      rcases hnext with fault | @⟨_, _, hstarts | hclosed⟩
      · exact .error fault
      · have hread := halike hstarts
        dsimp only
        generalize bytes _ = x at hread
        generalize text _ = y at hread
        rcases hread with fault | @⟨⟨a, _⟩, ⟨_, _⟩, rfl, hrest⟩
        · exact .error fault
        · exact ih (a :: read) false hrest
      · exact .ok ⟨rfl, hclosed⟩

theorem Alike.list {bytes text : Reader α} (halike : Alike bytes text) :
    Alike (@list .bytes _ bytes) (list text) := by
  intro u v h
  have hblank := h.skipBlank
  unfold Json.list
  generalize skipBlank u = u at hblank
  generalize skipBlank v = v at hblank
  have hmismatch := mismatch_agree "a sequence" hblank
  cases hblank.fronts with
  | nil => exact .error _
  | cons hheads =>
      rcases hheads.is '[' (by decide) with ⟨rfl, rfl, hrest⟩ | ⟨hs, ht⟩
      · simp only [width_agree hrest]
        exact halike.readElements [] _ true hrest
      · simpa [hs, ht, hmismatch] using .error _

theorem endList_agrees (h : Decodes u v) : Agrees Decodes (endList u) (endList v) := by
  have hblank := h.skipBlank
  unfold endList
  generalize skipBlank u = u at hblank
  generalize skipBlank v = v at hblank
  cases hblank.fronts with
  | nil => exact .error _
  | @cons s t u v hheads =>
      rcases hheads.is ']' (by decide) with ⟨rfl, rfl, hrest⟩ | ⟨hs, ht⟩
      · exact .ok hrest
      rcases hheads.is ',' (by decide) with ⟨rfl, rfl, hrest⟩ | ⟨hcomma, hcomma'⟩
      · have hnext := hrest.skipBlank
        simp only
        generalize skipBlank u = u at hnext
        generalize skipBlank v = v at hnext
        cases hnext.fronts with
        | nil => exact .error _
        | cons hheads =>
            rcases hheads.is ']' (by decide) with ⟨rfl, rfl, -⟩ | ⟨hs, ht⟩
            · exact .error _
            · simpa [hs, ht] using .error _
      · simpa [hs, ht, hcomma, hcomma'] using .error _

/-! ## Records -/

theorem nextMember_agrees (first : Bool) (h : Decodes u v) :
    Agrees SameNext (nextMember first u) (nextMember first v) := by
  have hblank := h.skipBlank
  unfold nextMember
  generalize skipBlank u = u at hblank
  generalize skipBlank v = v at hblank
  cases hblank.fronts with
  | nil => exact .error _
  | @cons s t u v hheads =>
      rcases hheads.is '\x7d' (by decide) with ⟨rfl, rfl, hrest⟩ | ⟨hs, ht⟩
      · exact .ok (.closed hrest)
      cases first with
      | true =>
          rcases hheads.is '"' (by decide) with ⟨rfl, rfl, hrest⟩ | ⟨hquote, hquote'⟩
          · exact .ok (.starts hrest)
          · simpa [hs, ht, hquote, hquote'] using .error _
      | false =>
          rcases hheads.is ',' (by decide) with ⟨rfl, rfl, hrest⟩ | ⟨hcomma, hcomma'⟩
          · have hnext := hrest.skipBlank
            simp only [Bool.false_eq_true, if_false, if_true]
            generalize skipBlank u = u at hnext
            generalize skipBlank v = v at hnext
            cases hnext.fronts with
            | nil => exact .error _
            | cons hheads =>
                rcases hheads.is '"' (by decide) with ⟨rfl, rfl, hrest⟩ | ⟨hquote, hquote'⟩
                · exact .ok (.starts hrest)
                rcases hheads.is '\x7d' (by decide) with ⟨rfl, rfl, -⟩ | ⟨hs, ht⟩
                · exact .error _
                · simpa [hs, ht, hquote, hquote'] using .error _
          · simpa [hs, ht, hcomma, hcomma'] using .error _

theorem readColon_agrees (h : Decodes u v) : Agrees Decodes (readColon u) (readColon v) := by
  have hblank := h.skipBlank
  unfold readColon
  generalize skipBlank u = u at hblank
  generalize skipBlank v = v at hblank
  cases hblank.fronts with
  | nil => exact .error _
  | cons hheads =>
      rcases hheads.is ':' (by decide) with ⟨rfl, rfl, hrest⟩ | ⟨hs, ht⟩
      · exact .ok hrest
      · simpa [hs, ht] using .error _

/-- The fields have one name and are read alike. -/
structure SameField (bytes text : Field σ) : Prop where
  name : bytes.name = text.name
  alike : ∀ r, Alike (bytes.read r) (text.read r)

/-- The fields of a record for each of the media. -/
abbrev SameFields (bytes text : List (Field σ)) : Prop := List.Forall₂ SameField bytes text

theorem Alike.field {name : String} {bytes text : Reader α} (halike : Alike bytes text)
    (set : σ → Option α → σ) :
    SameField (Field.ofOptional name bytes set) (Field.ofOptional name text set) where
  name := rfl
  alike r _ _ h := (halike.optional h).map fun hab => ⟨congrArg (set r) hab.1, hab.2⟩

/-- A name is that of a field in both media, or in neither. -/
theorem SameFields.find? {bytes text : List (Field σ)} (hsame : SameFields bytes text)
    (key : String) :
    (bytes.find? (·.name == key) = none ∧ text.find? (·.name == key) = none) ∨
      ∃ f g, bytes.find? (·.name == key) = some f ∧ text.find? (·.name == key) = some g ∧
        SameField f g := by
  induction hsame with
  | nil => exact .inl ⟨rfl, rfl⟩
  | @cons f g bytes text hfield _ ih =>
      cases hkey : g.name == key with
      | true => exact .inr ⟨f, g, by simp [hfield.name, hkey], by simp [hkey], hfield⟩
      | false => simpa [List.find?_cons, hfield.name, hkey] using ih

/-- The members of an object are read alike, by induction on the fuel. -/
theorem SameFields.readMembers {bytes text : List (Field σ)} (hsame : SameFields bytes text)
    (fuel : Nat) (first : Bool) (seen : List String) (r : σ) :
    Alike (@readMembers .bytes σ bytes fuel first seen r) (readMembers text fuel first seen r) := by
  intro u v h
  induction fuel generalizing first seen r u v with
  | zero => exact .error _
  | succ fuel ih =>
      have hnext := nextMember_agrees first h
      unfold Json.readMembers
      generalize nextMember first u = x at hnext
      generalize nextMember first v = y at hnext
      rcases hnext with fault | @⟨_, _, hstarts | hclosed⟩
      · exact .error fault
      · have hkey := alike_readString hstarts
        dsimp only
        generalize @readString .bytes _ = x at hkey
        generalize readString _ = y at hkey
        rcases hkey with fault | @⟨⟨key, _⟩, ⟨_, _⟩, rfl, hrest⟩
        · exact .error fault
        dsimp only
        rcases hsame.find? key with ⟨hbytes, htext⟩ | ⟨f, g, hbytes, htext, hfield⟩
        · have hskip := (readColon_agrees hrest).bind Skip.value_agrees
          simp only [hbytes, htext]
          generalize (_ >>= @Skip.value .bytes) = x at hskip
          generalize (_ >>= Skip.value) = y at hskip
          rcases hskip with fault | hrest
          · exact .error fault
          · exact ih false seen r hrest
        · have hread := (readColon_agrees hrest).bind fun hrest => hfield.alike r hrest
          simp only [hbytes, htext]
          split_ifs
          · exact .error _
          generalize (_ >>= f.read r) = x at hread
          generalize (_ >>= g.read r) = y at hread
          rcases hread with fault | @⟨⟨r', _⟩, ⟨_, _⟩, rfl, hrest⟩
          · exact .error fault
          · exact ih false (key :: seen) r' hrest
      · exact .ok ⟨rfl, hclosed⟩

/-- The fields of a record written as a list are read alike, by induction on the fields. -/
theorem SameFields.readPositions {bytes text : List (Field σ)} (hsame : SameFields bytes text)
    (first : Bool) (r : σ) : Alike (readPositions bytes first r) (readPositions text first r) := by
  intro u v h
  induction hsame generalizing first r u v with
  | nil => exact (endList_agrees h).map fun hrest => ⟨rfl, hrest⟩
  | @cons f g bytes text hfield _ ih =>
      have hnext := nextElement_agrees first h
      unfold Json.readPositions
      generalize nextElement first u = x at hnext
      generalize nextElement first v = y at hnext
      rcases hnext with fault | @⟨_, _, hstarts | hclosed⟩
      · exact .error fault
      · have hread := hfield.alike r hstarts
        dsimp only
        generalize f.read r _ = x at hread
        generalize g.read r _ = y at hread
        rcases hread with fault | @⟨⟨r', _⟩, ⟨_, _⟩, rfl, hrest⟩
        · exact .error fault
        · exact ih false r' hrest
      · exact .ok ⟨rfl, hclosed⟩

theorem SameFields.record {bytes text : List (Field σ)} (hsame : SameFields bytes text)
    (wanted : String) (empty : σ) :
    Alike (@record .bytes σ wanted bytes empty) (record wanted text empty) := by
  intro u v h
  have hblank := h.skipBlank
  unfold Json.record
  generalize skipBlank u = u at hblank
  generalize skipBlank v = v at hblank
  have hmismatch := mismatch_agree wanted hblank
  cases hblank.fronts with
  | nil => exact .error _
  | cons hheads =>
      rcases hheads.is '\x7b' (by decide) with ⟨rfl, rfl, hrest⟩ | ⟨hobject, hobject'⟩
      · simp only [width_agree hrest]
        exact (hsame.readMembers _ true [] empty hrest).map fun hr =>
          ⟨congrArg (·, Form.named) hr.1, hr.2⟩
      rcases hheads.is '[' (by decide) with ⟨rfl, rfl, hrest⟩ | ⟨hlist, hlist'⟩
      · exact (hsame.readPositions true empty hrest).map fun hr =>
          ⟨congrArg (·, Form.positional) hr.1, hr.2⟩
      · simpa [hobject, hobject', hlist, hlist', hmismatch] using .error _

/-- Whole documents are read alike. -/
theorem Alike.document {bytes text : Reader α} (halike : Alike bytes text) (h : Decodes u v) :
    document bytes u = document text v := by
  have hread := halike h
  unfold Json.document
  generalize bytes u = x at hread
  generalize text v = y at hread
  rcases hread with fault | @⟨⟨a, _⟩, ⟨_, _⟩, rfl, hrest⟩
  · rfl
  · simp only [hrest.skipBlank.isEmpty_eq]

end TimingReport.Json
