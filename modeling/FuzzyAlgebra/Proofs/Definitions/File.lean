import FuzzyAlgebra.Definitions.File
import FuzzyAlgebra.Proofs.Definitions.Outcome
import FuzzyAlgebra.Proofs.Yaml.Document

/-!
# What becomes of a file

A file that is not there, cannot be read, or holds no well-formed document is an error of the
configuration, and so is a document that is refused. Four things get past that: a path that no file
can have, a directory on the way that may not be searched, bytes that are no text, and a scalar that
has no value of the kind that its tag asks for. Of the reader of documents it is only asked with
which problems it fails.
-/

namespace FuzzyAlgebra

/-- The failure is an error of the configuration, or one of a more special kind. -/
def Failure.OfConfiguration (f : Failure) : Prop := ErrorKind.configuration ∈ f.kind.lineage

theorem Failure.ofConfiguration_of_kind {f : Failure}
    (h : f.kind ∈ [.configuration, .invalidConfiguration, .configurationFile]) :
    f.OfConfiguration := by
  have hkinds : ∀ kind ∈ [ErrorKind.configuration, .invalidConfiguration, .configurationFile],
      ErrorKind.configuration ∈ kind.lineage := by decide
  exact hkinds f.kind h

/-- A text that does not start at the root is a way from the home directory. -/
theorem FilePath.text_ofText_of_relative {home text : String}
    (h : text.toList.head? ≠ some '/') :
    (FilePath.ofText home text).text = "/".intercalate (home :: FilePath.stepsOf text) := by
  have hslashes : (text.toList.takeWhile (· = '/')).length = 0 := by
    cases htext : text.toList with
    | nil => rfl
    | cons c rest =>
      have hc : c ≠ '/' := fun hc => h (by rw [htext, hc]; rfl)
      simp [hc]
  rw [FilePath.ofText, hslashes]
  rfl

/-- A reader fails on a text that is not well formed, on one with a scalar that has no value, and on
bytes that are no text. -/
def DocumentReader.FailsAsDocumented (read : DocumentReader) : Prop :=
  ∀ bytes p, read bytes = .error p →
    p.OfText ∨ p = .mishap .undecodable ∧ String.fromUTF8? bytes = none

theorem Yaml.failsAsDocumented_read : DocumentReader.FailsAsDocumented Yaml.read :=
  fun _ _ => Yaml.problem_of_read

namespace Definitions

/-- A file for which loading ends with no error of the configuration but with a mishap. -/
inductive Escapes (read : DocumentReader) : FileState → Mishap → Prop
  | tooLong : Escapes read .tooLong .nameTooLong
  | unsearchable : Escapes read .unsearchable .notPermitted
  | undecodable {bytes : ByteArray} : String.fromUTF8? bytes = none →
    read bytes = .error (.mishap .undecodable) → Escapes read (.content bytes) .undecodable
  | valueless {bytes : ByteArray} {m : Mishap} : m ∈ Yaml.scalarMishaps →
    read bytes = .error (.mishap m) → Escapes read (.content bytes) m

/-- A file that gives no document, and the error that says so. -/
inductive Unloadable (read : DocumentReader) (path : String) : FileState → Failure → Prop
  | missing : Unloadable read path .missing (.fileNotFound path)
  | unreadable : Unloadable read path .unreadable (.unreadableFile path)
  | malformed {bytes : ByteArray} : read bytes = .error .malformed →
    Unloadable read path (.content bytes) (.malformedFile path)

/-- What a document holds; an empty one counts as a dictionary without entries. -/
def held : Value → Value
  | .absent => .dict []
  | document => document

/-! ### Documents -/

section Documents

variable {rules : SchemaRules} {entries : List (Value × Value)} {document : Value} {f : Failure}

theorem disordered_of_checkEntries (h : checkEntries rules entries = .refused f) :
    ∃ entry ∈ entries, Disordered rules entry f := by
  induction entries with
  | nil => cases h
  | cons first rest ih =>
    by_cases hfirst : ∃ g, Disordered rules first g
    · obtain ⟨g, hg⟩ := hfirst
      rw [checkEntries_cons, checkEntry_eq_refused_iff.mpr hg] at h
      cases h
      exact ⟨first, List.mem_cons_self, hg⟩
    · have hnot (g : Failure) : checkEntry rules first.1 first.2 ≠ .refused g := fun hg =>
        hfirst ⟨g, checkEntry_eq_refused_iff.mp hg⟩
      rw [checkEntries_cons, Checked.zipWith_eq_refused_iff hnot] at h
      obtain ⟨entry, hentry, hdisordered⟩ := ih h
      exact ⟨entry, List.mem_cons_of_mem _ hentry, hdisordered⟩

theorem ofConfiguration_of_check (h : check rules document = .refused f) : f.OfConfiguration := by
  unfold check at h
  split at h
  · next entries =>
    cases hentries : checkEntries rules entries with
    | refused g =>
      rw [hentries] at h
      cases h
      obtain ⟨entry, -, d, -, hdisorder⟩ := disordered_of_checkEntries hentries
      cases hdisorder <;> exact Failure.ofConfiguration_of_kind (by simp [Failure.kind])
    | invalid vs =>
      rw [hentries] at h
      cases h
    | valid ds =>
      rw [hentries] at h
      cases ds with
      | nil =>
        cases h
        exact Failure.ofConfiguration_of_kind (by simp [Failure.kind])
      | cons d ds => cases h
  · cases h

/-- Loading a document fails only with errors of the configuration. -/
theorem ofConfiguration_of_load {e : Fault} (h : (load document).result = .error e) :
    ∃ f, e = .failure f ∧ f.OfConfiguration := by
  rw [result_load] at h
  cases hcheck : check .lax document with
  | refused f =>
    rw [hcheck] at h
    cases h
    exact ⟨f, rfl, ofConfiguration_of_check hcheck⟩
  | invalid vs =>
    rw [hcheck] at h
    cases h
    exact ⟨_, rfl, Failure.ofConfiguration_of_kind (by simp [Failure.kind])⟩
  | valid ds =>
    rw [hcheck] at h
    cases h

theorem result_loadDocument (path : String) (document : Value) :
    (loadDocument path document).result = (load (held document)).result := by
  have hrest (document : Value) :
      (load document >>= fun ds =>
        Traced.log .info Channel.config ("Loaded " ++ toString ds.length
          ++ " fuzzy set definition(s) from " ++ path) >>= fun _ => pure ds).result =
        (load document).result := by
    cases h : (load document).result with
    | ok ds =>
      rw [Traced.bind_of_ok h]
      rfl
    | error e => rw [Traced.bind_of_error h]
  cases document with
  | absent => exact hrest (.dict [])
  | _ => exact hrest _

end Documents

/-! ### Files -/

section Files

variable {read : DocumentReader} {path : String} {file : FileState} {bytes : ByteArray}
  {f : Failure} {m : Mishap}

theorem result_log_bind {α : Type} (level : Level) (channel : String) (message : Thunk String)
    (t : Unit → Traced α) : (Traced.log level channel message >>= t).result = (t ()).result := by
  rw [Traced.bind_of_ok rfl]

theorem result_loadFile_content (read : DocumentReader) (path : String) (bytes : ByteArray) :
    (loadFile read path (.content bytes)).result = (loadBytes read path bytes).result := by
  unfold loadFile
  rw [result_log_bind]

theorem result_loadFile_of_read {document : Value} (h : read bytes = .ok document) :
    (loadFile read path (.content bytes)).result = (load (held document)).result := by
  rw [result_loadFile_content]
  unfold loadBytes
  rw [h]
  exact result_loadDocument path document

theorem result_loadFile_of_unloadable (h : Unloadable read path file f) :
    (loadFile read path file).result = .error (.failure f) := by
  cases h with
  | missing =>
    unfold loadFile
    rw [result_log_bind]
    rfl
  | unreadable =>
    unfold loadFile
    rw [result_log_bind]
    rfl
  | malformed hread =>
    rw [result_loadFile_content]
    unfold loadBytes
    rw [hread]
    rfl

theorem result_loadFile_of_mishap (h : read bytes = .error (.mishap m)) :
    (loadFile read path (.content bytes)).result = .error (.mishap m) := by
  rw [result_loadFile_content]
  unfold loadBytes
  rw [h]
  rfl

theorem result_loadFile_of_escapes (h : Escapes read file m) :
    (loadFile read path file).result = .error (.mishap m) := by
  cases h with
  | tooLong =>
    unfold loadFile
    rw [result_log_bind]
    rfl
  | unsearchable =>
    unfold loadFile
    rw [result_log_bind]
    rfl
  | undecodable _ hread => exact result_loadFile_of_mishap hread
  | valueless _ hread => exact result_loadFile_of_mishap hread

theorem Unloadable.ofConfiguration (h : Unloadable read path file f) : f.OfConfiguration := by
  cases h <;> exact Failure.ofConfiguration_of_kind (by simp [Failure.kind])

theorem escapes_of_read (hread : read.FailsAsDocumented)
    (h : read bytes = .error (.mishap m)) : Escapes read (.content bytes) m := by
  rcases hread bytes _ h with htext | ⟨hm, hbytes⟩
  · cases htext with
    | mishap hm => exact .valueless hm h
  · cases hm
    exact .undecodable hbytes h

/-- A file gives no document, lets a mishap escape, or holds a document. -/
theorem unloadable_or_escapes_or_read (hread : read.FailsAsDocumented) (path : String)
    (file : FileState) :
    (∃ f, Unloadable read path file f) ∨ (∃ m, Escapes read file m) ∨
      ∃ bytes document, file = .content bytes ∧ read bytes = .ok document := by
  cases file with
  | missing => exact .inl ⟨_, .missing⟩
  | unreadable => exact .inl ⟨_, .unreadable⟩
  | tooLong => exact .inr (.inl ⟨_, .tooLong⟩)
  | unsearchable => exact .inr (.inl ⟨_, .unsearchable⟩)
  | content bytes =>
    cases hresult : read bytes with
    | ok document => exact .inr (.inr ⟨bytes, document, rfl, hresult⟩)
    | error p =>
      cases p with
      | malformed => exact .inl ⟨_, .malformed hresult⟩
      | mishap m => exact .inr (.inl ⟨m, escapes_of_read hread hresult⟩)

end Files

end Definitions

end FuzzyAlgebra
