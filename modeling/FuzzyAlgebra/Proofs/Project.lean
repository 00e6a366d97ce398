import FuzzyAlgebra.Project
import FuzzyAlgebra.Toml.Document

/-!
# Reading the version

A project file tells the version if it decodes, reads as a document, and has a project table with
the name of the package and a version that is a text. Where it does not, the fallback takes its
place, but not always: what falls through are bytes that are no text, a whole number with more
digits than are read, a project that is no table, and a version that is no text. None of this
depends on what the reader of documents accepts.
-/

namespace FuzzyAlgebra.Project

open Toml (Table)

/-- The document is about the package and gives a text as its version. -/
def Tells (document : Table) (v : String) : Prop :=
  ∃ project, Table.get? document "project" = some (.table project) ∧
    Table.get? project "name" = some (.text Package.name) ∧
    Table.get? project "version" = some (.text v)

/-- The file is there and holds a document that tells the version. -/
def TellsVersion (read : Toml.TableReader) (file : Option ByteArray) (v : String) : Prop :=
  ∃ bytes s document, file = some bytes ∧ String.fromUTF8? bytes = some s ∧
    read s = .ok document ∧ Tells document v

/-- A document of a shape that is not expected, and what comes of it. -/
inductive Misshapen (document : Table) : Except Mishap Value → Prop
  | notATable {v : Toml.Value} : Table.get? document "project" = some v → (∀ t, v ≠ .table t) →
    Misshapen document (.error .wrongType)
  | notAText {project : Table} {v : Toml.Value} :
    Table.get? document "project" = some (.table project) →
    Table.get? project "name" = some (.text Package.name) →
    Table.get? project "version" = some v → (∀ s, v ≠ .text s) →
    Misshapen document (.ok v.toValue)

/-- A file for which the fallback does not step in although it tells no version, and what comes of
it. -/
inductive Slip (read : Toml.TableReader) : Option ByteArray → Except Mishap Value → Prop
  | undecodable {bytes : ByteArray} : String.fromUTF8? bytes = none →
    Slip read (some bytes) (.error .undecodable)
  | oversized {bytes : ByteArray} {s : String} : String.fromUTF8? bytes = some s →
    read s = .error .oversized → Slip read (some bytes) (.error .malformed)
  | misshapen {bytes : ByteArray} {s : String} {document : Table} {r : Except Mishap Value} :
    String.fromUTF8? bytes = some s → read s = .ok document → Misshapen document r →
    Slip read (some bytes) r

/-! ### Documents -/

section Documents

variable {document project : Table} {v : Toml.Value} {r : Except Mishap Value} {name : String}

theorem member_of_some (h : Table.get? project name = some v) :
    member (.table project) name = .ok v := by
  rw [member, h]

theorem member_of_none (h : Table.get? project name = none) :
    member (.table project) name = .error .missingKey := by
  rw [member, h]

theorem member_of_ne_table (h : ∀ t, v ≠ .table t) (name : String) :
    member v name = .error .wrongType := by
  cases v with
  | table t => exact absurd rfl (h t)
  | _ => rfl

/-- A project with another name is somebody else's. -/
theorem versionOf_of_name_ne (hproject : Table.get? document "project" = some (.table project))
    (hname : Table.get? project "name" = some v) (hne : v ≠ .text Package.name) :
    versionOf document = .ok (.text fallbackVersion) := by
  simp only [versionOf, member_of_some hproject, member_of_some hname, bind, Except.bind]
  cases v with
  | text s =>
    have hs : ¬ s = Package.name := fun h => hne (congrArg _ h)
    simp only [hs, if_false]
    rfl
  | _ => rfl

theorem versionOf_of_ours (hproject : Table.get? document "project" = some (.table project))
    (hname : Table.get? project "name" = some (.text Package.name)) :
    versionOf document = (member (.table project) "version").map Toml.Value.toValue := by
  simp only [versionOf, member_of_some hproject, member_of_some hname, bind, Except.bind, if_true]
  cases member (.table project) "version" <;> rfl

theorem versionOf_of_tells {s : String} (h : Tells document s) :
    versionOf document = .ok (.text s) := by
  obtain ⟨project, hproject, hname, hversion⟩ := h
  rw [versionOf_of_ours hproject hname, member_of_some hversion]
  rfl

theorem versionOf_of_misshapen (h : Misshapen document r) : versionOf document = r := by
  cases h with
  | notATable hproject hv =>
    simp only [versionOf, member_of_some hproject, member_of_ne_table hv, bind, Except.bind]
  | notAText hproject hname hversion _ =>
    rw [versionOf_of_ours hproject hname, member_of_some hversion]
    rfl

/-- Any other document lacks a name that was asked for, or is about another project. -/
theorem versionOf_of_neither (htells : ¬ ∃ s, Tells document s)
    (hshape : ¬ ∃ r, Misshapen document r) :
    versionOf document = .error .missingKey ∨
      versionOf document = .ok (.text fallbackVersion) := by
  cases hproject : Table.get? document "project" with
  | none =>
    left
    simp only [versionOf, member_of_none hproject, bind, Except.bind]
  | some p =>
    by_cases htable : ∃ t, p = .table t
    · obtain ⟨project, rfl⟩ := htable
      cases hname : Table.get? project "name" with
      | none =>
        left
        simp only [versionOf, member_of_some hproject, member_of_none hname, bind, Except.bind]
      | some n =>
        by_cases hours : n = .text Package.name
        · subst hours
          cases hversion : Table.get? project "version" with
          | none =>
            left
            rw [versionOf_of_ours hproject hname, member_of_none hversion]
            rfl
          | some v =>
            by_cases htext : ∃ s, v = .text s
            · obtain ⟨s, rfl⟩ := htext
              exact absurd ⟨s, project, hproject, hname, hversion⟩ htells
            · exact absurd ⟨_, .notAText hproject hname hversion fun s h => htext ⟨s, h⟩⟩ hshape
        · exact .inr (versionOf_of_name_ne hproject hname hours)
    · exact absurd ⟨_, .notATable hproject fun t h => htable ⟨t, h⟩⟩ hshape

theorem Misshapen.ne_text (h : Misshapen document r) (s : String) : r ≠ .ok (.text s) := by
  cases h with
  | notATable _ _ => simp
  | @notAText _ v _ _ _ hv =>
    cases v with
    | text t => exact absurd rfl (hv t)
    | _ => simp [Toml.Value.toValue]

theorem Misshapen.ne_missingKey (h : Misshapen document r) : r ≠ .error .missingKey := by
  cases h <;> simp

end Documents

/-! ### Files -/

section Files

variable {read : Toml.TableReader} {file : Option ByteArray} {bytes : ByteArray} {s : String}
  {document : Table} {r : Except Mishap Value}

theorem version_of_document (hdecode : String.fromUTF8? bytes = some s)
    (hread : read s = .ok document) (hkey : versionOf document ≠ .error .missingKey) :
    version read (some bytes) = versionOf document := by
  simp only [version, hdecode, hread]

theorem version_of_missingKey (hdecode : String.fromUTF8? bytes = some s)
    (hread : read s = .ok document) (hkey : versionOf document = .error .missingKey) :
    version read (some bytes) = .ok (.text fallbackVersion) := by
  simp only [version, hdecode, hread, hkey]

theorem version_of_tells {v : String} (h : TellsVersion read file v) :
    version read file = .ok (.text v) := by
  obtain ⟨bytes, s, document, rfl, hdecode, hread, htells⟩ := h
  have hversion := versionOf_of_tells htells
  rw [version_of_document hdecode hread (by simp [hversion]), hversion]

theorem version_of_slip (h : Slip read file r) : version read file = r := by
  cases h with
  | undecodable hdecode => simp only [version, hdecode]
  | oversized hdecode hread => simp only [version, hdecode, hread]
  | misshapen hdecode hread hshape =>
    have hversion := versionOf_of_misshapen hshape
    rw [version_of_document hdecode hread (by rw [hversion]; exact hshape.ne_missingKey), hversion]

theorem version_of_neither (htells : ¬ ∃ v, TellsVersion read file v)
    (hslip : ¬ ∃ r, Slip read file r) : version read file = .ok (.text fallbackVersion) := by
  cases file with
  | none => rfl
  | some bytes =>
    cases hdecode : String.fromUTF8? bytes with
    | none => exact absurd ⟨_, .undecodable hdecode⟩ hslip
    | some s =>
      cases hread : read s with
      | error flaw =>
        cases flaw with
        | malformed => simp only [version, hdecode, hread]
        | oversized => exact absurd ⟨_, .oversized hdecode hread⟩ hslip
      | ok document =>
        have hdocument := @versionOf_of_neither document
          (fun ⟨v, hv⟩ => htells ⟨v, bytes, s, document, rfl, hdecode, hread, hv⟩)
          (fun ⟨r, hr⟩ => hslip ⟨r, .misshapen hdecode hread hr⟩)
        rcases hdocument with hkey | hother
        · exact version_of_missingKey hdecode hread hkey
        · rw [version_of_document hdecode hread (by simp [hother]), hother]

theorem Slip.ne_text (h : Slip read file r) (v : String) : r ≠ .ok (.text v) := by
  cases h with
  | undecodable _ => simp
  | oversized _ _ => simp
  | misshapen _ _ hshape => exact hshape.ne_text v

end Files

/-- **Reading the version.** With any reader of documents, reading gives a text unless one of four
things slips through. It is the
version that the file tells if it tells one, and otherwise the fallback; what slips through fails,
or hands out a version that is no text. -/
theorem version_outcome (read : Toml.TableReader) (file : Option ByteArray) :
    ((∃ v, version read file = .ok (.text v)) ↔ ¬ ∃ r, Slip read file r) ∧
    (∀ v, TellsVersion read file v → version read file = .ok (.text v)) ∧
    ((¬ ∃ v, TellsVersion read file v) → (¬ ∃ r, Slip read file r) →
      version read file = .ok (.text fallbackVersion)) ∧
    (∀ r, Slip read file r → version read file = r) := by
  refine ⟨⟨?_, fun hslip => ?_⟩, fun v => version_of_tells, version_of_neither,
    fun r => version_of_slip⟩
  · rintro ⟨v, hv⟩ ⟨r, hr⟩
    exact hr.ne_text v ((version_of_slip hr).symm.trans hv)
  · by_cases htells : ∃ v, TellsVersion read file v
    · obtain ⟨v, hv⟩ := htells
      exact ⟨v, version_of_tells hv⟩
    · exact ⟨fallbackVersion, version_of_neither htells hslip⟩

/-- A byte that starts no character makes reading fail. -/
theorem version_of_no_character : version Toml.read (some ⟨#[0xff]⟩) = .error .undecodable := by
  have hdecode : String.fromUTF8? ⟨#[0xff]⟩ = none := by decide
  simp only [version, hdecode]

end FuzzyAlgebra.Project
