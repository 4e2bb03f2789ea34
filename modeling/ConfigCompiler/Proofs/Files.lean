import ConfigCompiler.Storage.Disk

/-!
# Files that were written

**Invariant.**  Putting something where no directory stands keeps all directories, and
`Disk.KeepsDirectories` is enough for every path to lead where it led.

**Results.**
* `KeepsDirectories.locate?`: a path leads to the same location after a change that keeps
  directories.
* `lookup?_saveFile`: what is saved at a path stands there afterwards, unless a sink stands there.
* `readText?_of_file`: the text of a file is the text that was written.
-/

namespace ConfigCompiler
namespace Disk

variable {d d' : Disk} {location : Location} {path : String} {bytes : List UInt8}

/-- Every directory of a disk is a directory of another one. -/
def KeepsDirectories (d d' : Disk) : Prop :=
  ∀ location, d.isDirectory location = true → d'.isDirectory location = true

theorem isDirectory_iff : d.isDirectory location = true ↔ d.node? location = some .directory := by
  unfold isDirectory
  cases h : d.node? location with
  | none => simp
  | some n => cases n <;> simp

/-- One part of a path leads to the same place while directories stay. -/
theorem KeepsDirectories.follow? {part : String} {inner : Location} (h : KeepsDirectories d d')
    (hfollow : d.follow? location part = some inner) : d'.follow? location part = some inner := by
  unfold Disk.follow? at hfollow ⊢
  split at hfollow
  · next hdirectory =>
      rw [Bool.and_eq_true] at hdirectory
      rw [if_pos (Bool.and_eq_true _ _ ▸ ⟨h location hdirectory.1, hdirectory.2⟩)]
      exact hfollow
  · cases hfollow

/-- A path leads to the same location while directories stay. -/
theorem KeepsDirectories.locate? (h : KeepsDirectories d d')
    (hlocate : d.locate? path = some location) : d'.locate? path = some location := by
  have hparts : ∀ (parts : List String) (start : Location),
      parts.foldlM d.follow? start = some location →
      parts.foldlM d'.follow? start = some location := by
    intro parts
    induction parts with
    | nil => exact fun _ hparts => hparts
    | cons part parts ih =>
        intro start hparts
        rw [List.foldlM_cons] at hparts ⊢
        obtain ⟨inner, hfollow, hrest⟩ := Option.bind_eq_some_iff.1 hparts
        exact Option.bind_eq_some_iff.2 ⟨inner, h.follow? hfollow, ih inner hrest⟩
  unfold Disk.locate? at hlocate ⊢
  split at hlocate
  · next husable =>
      rw [if_pos husable]
      exact hparts _ _ hlocate
  · cases hlocate

/-- The root apart, what is put at a location stands there. -/
theorem node?_put_self {n : DiskNode} (hne : location.isEmpty = false) :
    (d.put location n).node? location = some n := by
  simp [node?, put, hne]

/-- Directories stay where something is put that no directory stood. -/
theorem keepsDirectories_put {n : DiskNode} (h : d.isDirectory location = false) :
    KeepsDirectories d (d.put location n) := by
  intro other hother
  rw [isDirectory_iff] at hother ⊢
  unfold node? at hother ⊢
  split
  · rfl
  · next hne =>
      rw [if_neg hne] at hother
      have hkey : locationKey location ≠ locationKey other := by
        intro heq
        have hnode : d.node? location = some .directory := by
          unfold node?
          split
          · rfl
          · rw [heq]
            exact hother
        rw [isDirectory_iff.2 hnode] at h
        cases h
      rw [put, SortedMap.get?_insert, if_neg hkey]
      exact hother

/-- What is written at a path stands there afterwards, unless a sink stands there. -/
theorem lookup?_writeFile? (h : d.writeFile? path bytes = some d') :
    d'.lookup? path = some (.file bytes) ∨ d'.lookup? path = some .sink := by
  unfold writeFile? at h
  split at h
  · cases h
  · next location hlocate =>
      split at h
      · cases h
      · next hsink =>
          cases h
          right
          rw [lookup?, hlocate]
          exact hsink
      · next hdirectory hsink =>
          cases h
          have hplain : d.isDirectory location = false := by
            rw [← Bool.not_eq_true, isDirectory_iff]
            exact hdirectory
          have hne : location.isEmpty = false := by
            rw [← Bool.not_eq_true]
            intro hempty
            exact hdirectory (by rw [node?, if_pos hempty])
          left
          rw [lookup?, (keepsDirectories_put hplain).locate? hlocate]
          exact node?_put_self hne

/-- What is saved at a path stands there afterwards, unless a sink stands there. -/
theorem lookup?_saveFile (h : (d.saveFile path bytes).2 = true) :
    (d.saveFile path bytes).1.lookup? path = some (.file bytes) ∨
      (d.saveFile path bytes).1.lookup? path = some .sink := by
  obtain ⟨made, complete, hparents⟩ : ∃ made complete, d.makeParents path = (made, complete) :=
    ⟨_, _, rfl⟩
  simp only [saveFile, hparents] at h ⊢
  cases complete with
  | false => cases h
  | true =>
      simp only [if_true] at h ⊢
      cases hwrite : made.writeFile? path bytes with
      | none => simp [hwrite] at h
      | some written => exact lookup?_writeFile? hwrite

/-- Bytes are listed in their order. -/
theorem toList_loop (bs : ByteArray) (i : Nat) (listed : List UInt8) :
    ByteArray.toList.loop bs i listed = listed.reverse ++ bs.data.toList.drop i := by
  induction i, listed using ByteArray.toList.loop.induct bs with
  | case1 i listed hlt ih =>
      have hi : i < bs.data.toList.length := by simpa using hlt
      have hget : bs.get! i = bs.data.toList[i] := by
        rw [ByteArray.get!, Array.getElem_toList]
        exact getElem!_pos bs.data i (by simpa using hlt)
      rw [ByteArray.toList.loop, if_pos hlt, ih, List.drop_eq_getElem_cons hi, hget]
      simp
  | case2 i listed hge =>
      have hlength : bs.data.toList.length ≤ i := by simpa using hge
      rw [ByteArray.toList.loop, if_neg hge, List.drop_eq_nil_of_le hlength, List.append_nil]

/-- The text of a file is the text that was written. -/
theorem readText?_of_file {text : String}
    (h : d.lookup? path = some (.file text.toUTF8.toList)) : d.readText? path = some text := by
  have hbytes : (⟨text.toUTF8.toList.toArray⟩ : ByteArray) = text.toUTF8 := by
    rw [ByteArray.toList, toList_loop]
    simp
  simp only [readText?, h, hbytes]
  exact dif_pos text.isValidUTF8

end Disk
end ConfigCompiler
