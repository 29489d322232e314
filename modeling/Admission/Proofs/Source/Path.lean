import Admission.Proofs.Command.Verify
import Admission.Source.Path

/-!
# Behind a slash

A path that goes on behind a slash leads to what stands before the slash, and from there on
(`Place.find_append`, `Place.find_join`). So nothing is found behind a place where nothing is, and
nothing behind a file, while a slash that closes a path leaves a directory what it is
(`Place.source_of_absent`, `Place.source_of_file`, `Place.source_of_directory`). A program that is
sent behind a file runs on the standard configuration, or has no transaction
(`Command.verifyReport_behind_file`, `Command.readTransaction_behind_file`).
-/

namespace Admission

open Admission.Text

namespace Place

variable {p : Place}

/-! ## Joined paths -/

/-- Where a path starts is told by its first character. -/
lemma start_append (p : Place) {a : List Char} (ha : a ≠ []) (b : List Char) :
    p.start (a ++ b) = p.start a := by
  obtain ⟨c, rest, rfl⟩ := List.exists_cons_of_ne_nil ha
  by_cases hslash : c = '/'
  · subst hslash
    rfl
  · simp [start, hslash]

/-- A path that opens with no slash starts where it is looked for. -/
lemma start_of_relative (p : Place) {path : List Char} (h : path.head? ≠ some '/') :
    p.start path = p := by
  cases path with
  | nil => rfl
  | cons c rest =>
    have hslash : c ≠ '/' := fun hc => h (congrArg some hc)
    simp [start, hslash]

/-- A path leads up to any of its slashes, and from there along the names behind it. -/
theorem find_append (p : Place) {a b : List Char} (ha : a ≠ [])
    (hlength : byteLength (a ++ '/' :: b) < pathLimit) :
    p.find (a ++ '/' :: b) = (p.find a).bind fun q => q.follow (namesOf b) := by
  have hjoined : a ++ '/' :: b ≠ [] := List.append_ne_nil_of_left_ne_nil ha _
  have hfront : ¬pathLimit ≤ byteLength a := by
    rw [byteLength_append] at hlength
    omega
  rw [find, if_neg hjoined, if_neg (Nat.not_le.mpr hlength), start_append p ha, namesOf_append,
    follow_append, find, if_neg ha, if_neg hfront]

/-- What stands behind a slash is a path of its own from the place before the slash, unless it is
empty or opens with a slash itself. -/
theorem find_join (p : Place) {a b : List Char} (ha : a ≠ []) (hb : b ≠ [])
    (hrelative : b.head? ≠ some '/') (hlength : byteLength (a ++ '/' :: b) < pathLimit) :
    p.find (a ++ '/' :: b) = (p.find a).bind fun q => q.find b := by
  have hback : ¬pathLimit ≤ byteLength b := by
    rw [List.append_cons, byteLength_append] at hlength
    omega
  rw [find_append p ha hlength]
  congr 1
  funext q
  rw [find, if_neg hb, if_neg hback, start_of_relative q hrelative]

/-! ## What is found -/

lemma source_eq_absent_iff {path : String} {why : Absence} :
    p.source path = .absent why ↔ p.find path.toList = .error why := by
  unfold source
  split <;> rename_i hfind <;> simp [hfind]

lemma source_eq_file_iff {path : String} {bytes : List UInt8} :
    p.source path = .file bytes ↔ ∃ around, p.find path.toList = .ok ⟨.file bytes, around⟩ := by
  unfold source
  split <;> rename_i hfind <;> simp [hfind]

lemma source_eq_directory_iff {path : String} :
    p.source path = .directory ↔
      ∃ entries around, p.find path.toList = .ok ⟨.directory entries, around⟩ := by
  unfold source
  split <;> rename_i hfind <;> simp [hfind]

variable {a : String}

lemma toList_joined (a b : String) : (a ++ "/" ++ b).toList = a.toList ++ '/' :: b.toList := by
  rw [String.toList_append, String.toList_append]
  exact List.append_assoc _ ['/'] _

/-- The empty path leads nowhere, so one that leads somewhere has a first character. -/
lemma ne_nil_of_find {path : List Char} {q : Place} (h : p.find path = .ok q) : path ≠ [] := by
  rintro rfl
  cases h

/-- A path that is too long leads nowhere. -/
lemma source_of_long {path : String} (h : pathLimit ≤ byteLength path.toList) :
    ∃ why, p.source path = .absent why := by
  by_cases hempty : path.toList = []
  · exact ⟨.missing, source_eq_absent_iff.mpr (by rw [find, if_pos hempty])⟩
  · exact ⟨.nameTooLong, source_eq_absent_iff.mpr (by rw [find, if_neg hempty, if_pos h])⟩

/-- Where nothing is, there is nothing behind it, for the same reason. -/
theorem source_of_absent {why : Absence} (h : p.source a = .absent why) (ha : a ≠ "") (b : String)
    (hlength : byteLength (a ++ "/" ++ b).toList < pathLimit) :
    p.source (a ++ "/" ++ b) = .absent why := by
  have hne : a.toList ≠ [] := fun hnil => ha (String.toList_eq_nil_iff.mp hnil)
  rw [toList_joined] at hlength
  rw [source_eq_absent_iff] at h ⊢
  rw [toList_joined, find_append p hne hlength, h]
  rfl

/-- Nothing is behind a file, not even the file itself. -/
theorem source_of_file {bytes : List UInt8} (h : p.source a = .file bytes) (b : String)
    (hlength : byteLength (a ++ "/" ++ b).toList < pathLimit) :
    p.source (a ++ "/" ++ b) = .absent .blocked := by
  obtain ⟨around, hfind⟩ := source_eq_file_iff.mp h
  obtain ⟨name, names, hnames⟩ := List.exists_cons_of_ne_nil (namesOf_ne_nil b.toList)
  rw [toList_joined] at hlength
  rw [source_eq_absent_iff, toList_joined, find_append p (ne_nil_of_find hfind) hlength, hfind,
    hnames]
  exact follow_file bytes around name names

/-- A directory may be named with a slash behind it. -/
theorem source_of_directory (h : p.source a = .directory)
    (hlength : byteLength (a ++ "/").toList < pathLimit) : p.source (a ++ "/") = .directory := by
  obtain ⟨entries, around, hfind⟩ := source_eq_directory_iff.mp h
  rw [String.toList_append] at hlength
  have hslash : p.find (a.toList ++ "/".toList) = (p.find a.toList).bind fun q => q.follow [[]] :=
    find_append p (ne_nil_of_find hfind) hlength
  rw [source_eq_directory_iff, String.toList_append, hslash, hfind]
  exact ⟨entries, around, rfl⟩

/-- Behind a file nothing is found, be the path short or long. -/
theorem absent_behind_file {bytes : List UInt8} (h : p.source a = .file bytes) (b : String) :
    ∃ why, p.source (a ++ "/" ++ b) = .absent why := by
  by_cases hlength : byteLength (a ++ "/" ++ b).toList < pathLimit
  · exact ⟨.blocked, source_of_file h b hlength⟩
  · exact source_of_long (Nat.not_lt.mp hlength)

end Place

/-! ## Programs -/

namespace Command

variable {p : Place} {a : String} {bytes : List UInt8}

/-- A program whose configuration would lie behind a file judges a transaction by the standard
configuration, on a ledger without clients. -/
theorem verifyReport_behind_file (h : p.source a = .file bytes) (b file : String) :
    verifyReport p.source (a ++ "/" ++ b) file
      = (readTransaction p.source file).map fun tx =>
          verdictReport tx (verdict .standard .empty tx) := by
  obtain ⟨why, hwhy⟩ := Place.absent_behind_file h b
  rw [verifyReport, hwhy]
  rfl

/-- A transaction that would lie behind a file is not read. -/
theorem readTransaction_behind_file (h : p.source a = .file bytes) (b : String) :
    ∃ why, readTransaction p.source (a ++ "/" ++ b)
      = .error (.transactionFile (a ++ "/" ++ b) (.absent why)) := by
  obtain ⟨why, hwhy⟩ := Place.absent_behind_file h b
  rw [readTransaction, hwhy]
  exact ⟨why, rfl⟩

end Command

end Admission
