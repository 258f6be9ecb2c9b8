import OpenSaab.Files.Model

/-!
# The file store is sparse files

What the store keeps in every run, and each service as a step of the model.
-/

namespace OpenSaab.Files

open Std Table Bytes Runs

variable {M : Type} [GuestMemory M]

/-! ## What the store keeps -/

def Model.ofStore (s : PsosFiles) : Model where
  files name := s.files[name]?.map fun f => Sparse.ofList 0 f.bytes
  handles key := s.handles[key]?

structure Valid (s : PsosFiles) : Prop where
  slots : ∀ (key : UInt32) (h : Handle), s.handles[key]? = some h → key ∈ Model.slots
  present : ∀ (key : UInt32) (h : Handle), s.handles[key]? = some h → ∃ f, s.files[h.name]? = some f
  offsets : ∀ (key : UInt32) (h : Handle), s.handles[key]? = some h → h.offset ≤ capacity
  total : s.total ≤ capacity
  count : s.files.size ≤ 256

@[simp] theorem explain_files (s : PsosFiles) (op code : UInt32) :
    (s.explain op code).files = s.files := by
  unfold PsosFiles.explain
  split <;> rfl

@[simp] theorem explain_handles (s : PsosFiles) (op code : UInt32) :
    (s.explain op code).handles = s.handles := by
  unfold PsosFiles.explain
  split <;> rfl

/-- Nothing but the files and the handles counts. -/
theorem Valid.of_eq {s s' : PsosFiles} (h : Valid s) (hf : s'.files = s.files)
    (hh : s'.handles = s.handles) : Valid s' where
  slots := hh ▸ h.slots
  present := hf ▸ hh ▸ h.present
  offsets := hh ▸ h.offsets
  total := by rw [PsosFiles.total, hf]; exact h.total
  count := hf ▸ h.count

theorem ofStore_eq {s s' : PsosFiles} (hf : s'.files = s.files) (hh : s'.handles = s.handles) :
    Model.ofStore s' = Model.ofStore s := by
  rw [Model.ofStore, Model.ofStore, hf, hh]

/-- A handle put in its slot, on a file that exists. -/
theorem Valid.insert_handle {s : PsosFiles} (hs : Valid s) {key : UInt32} {h : Handle}
    (hkey : key ∈ Model.slots) (hfile : ∃ f, s.files[h.name]? = some f)
    (hoffset : h.offset ≤ capacity) : Valid { s with handles := s.handles.insert key h } := by
  have hcase : ∀ (key' : UInt32) (h' : Handle), (s.handles.insert key h)[key']? = some h' →
      (key' = key ∧ h' = h) ∨ s.handles[key']? = some h' := by
    intro key' h' hget
    rw [get_insert] at hget
    split at hget
    · next heq => exact .inl ⟨heq, (Option.some.inj hget).symm⟩
    · exact .inr hget
  refine ⟨?_, ?_, ?_, hs.total, hs.count⟩
  · intro key' h' hget
    obtain ⟨rfl, -⟩ | hold := hcase key' h' hget
    · exact hkey
    · exact hs.slots key' h' hold
  · intro key' h' hget
    obtain ⟨-, rfl⟩ | hold := hcase key' h' hget
    · exact hfile
    · exact hs.present key' h' hold
  · intro key' h' hget
    obtain ⟨-, rfl⟩ | hold := hcase key' h' hget
    · exact hoffset
    · exact hs.offsets key' h' hold

theorem Valid.erase_handle {s : PsosFiles} (hs : Valid s) (key : UInt32) :
    Valid { s with handles := s.handles.erase key } := by
  have hcase : ∀ (key' : UInt32) (h' : Handle), (s.handles.erase key)[key']? = some h' →
      s.handles[key']? = some h' := by
    intro key' h' hget
    rw [get_erase] at hget
    split at hget
    · cases hget
    · exact hget
  exact ⟨fun k h hk => hs.slots k h (hcase k h hk), fun k h hk => hs.present k h (hcase k h hk),
    fun k h hk => hs.offsets k h (hcase k h hk), hs.total, hs.count⟩

theorem total_insert (s : PsosFiles) (name : String) (f : HostFile) :
    ({ s with files := s.files.insert name f } : PsosFiles).total +
        ((s.files[name]?).map fun f => f.bytes.length).getD 0 =
      s.total + f.bytes.length :=
  sum_insert (fun f : HostFile => f.bytes.length) s.files name f

/-- A file put under a name, where there is room for it. -/
theorem Valid.insert_file {s : PsosFiles} (hs : Valid s) {name : String} {f : HostFile}
    (htotal : s.total + f.bytes.length ≤
      capacity + ((s.files[name]?).map fun f => f.bytes.length).getD 0)
    (hcount : s.files[name]?.isSome ∨ s.files.size < 256) :
    Valid { s with files := s.files.insert name f } := by
  refine ⟨hs.slots, ?_, hs.offsets, ?_, ?_⟩
  · intro key h hget
    rw [get_insert]
    split
    · exact ⟨f, rfl⟩
    · exact hs.present key h hget
  · have hsum := total_insert s name f
    omega
  · simp only [TreeMap.size_insert]
    have hold := hs.count
    split
    · exact hold
    · next hmem =>
      have hnone : s.files[name]?.isSome = false := by
        rw [← Bool.not_eq_true, TreeMap.isSome_getElem?_iff_mem]
        exact hmem
      rw [hnone] at hcount
      have hlt := hcount.resolve_left (by decide)
      omega

/-! ## The model of a changed store -/

theorem ofStore_insert_handle (s : PsosFiles) (key : UInt32) (h : Handle) :
    Model.ofStore { s with handles := s.handles.insert key h } =
      (Model.ofStore s).setHandle key (some h) := by
  ext1
  · rfl
  · funext key'
    simp only [Model.ofStore, Model.setHandle, Function.update_apply, get_insert]

theorem ofStore_erase_handle (s : PsosFiles) (key : UInt32) :
    Model.ofStore { s with handles := s.handles.erase key } =
      (Model.ofStore s).setHandle key none := by
  ext1
  · rfl
  · funext key'
    simp only [Model.ofStore, Model.setHandle, Function.update_apply, get_erase]

theorem ofStore_insert_file (s : PsosFiles) (name : String) (f : HostFile) :
    Model.ofStore { s with files := s.files.insert name f } =
      (Model.ofStore s).setFile name (Sparse.ofList 0 f.bytes) := by
  ext1
  · funext name'
    simp only [Model.ofStore, Model.setFile, Function.update_apply, get_insert]
    split <;> rfl
  · rfl

/-! ## What the store holds altogether -/

/-- Where the store counts 256 files, so many names are in use. -/
theorem ofStore_crowded {s : PsosFiles} (h : 256 ≤ s.files.size) : (Model.ofStore s).Crowded := by
  refine ⟨s.files.keys, TreeMap.nodup_keys, ?_, ?_⟩
  · rw [TreeMap.length_keys]
    exact h
  · intro name hname
    rw [← TreeMap.map_fst_toList_eq_keys] at hname
    obtain ⟨e, he, rfl⟩ := List.mem_map.mp hname
    simp [Model.ofStore, get_of_mem he]

/-- Where the sum of the store leaves no room, the files of the model leave none. -/
theorem ofStore_full {s : PsosFiles} {growth : Nat} (h : capacity < s.total + growth) :
    (Model.ofStore s).Full growth := by
  refine ⟨s.files.keys, TreeMap.nodup_keys, ?_⟩
  have hsum : (s.files.keys.map fun n => ((Model.ofStore s).contents n).size) =
      (values s.files).map fun f => f.bytes.length := by
    rw [← TreeMap.map_fst_toList_eq_keys, values, List.map_map, List.map_map]
    refine List.map_congr_left fun e he => ?_
    simp [Model.contents, Model.ofStore, get_of_mem he, Sparse.ofList]
  rw [hsum]
  exact h

/-! ## The services -/

/-- The stores carried out. -/
def deliver (m : M) (out : Stores) : M := out.foldl (fun m w => GuestMemory.store m w.1 w.2) m

/-- What is put into memory last is there. -/
def Landed (m : M) (out : Stores) : Prop :=
  ∀ w, out.getLast? = some w → GuestMemory.ramMut m w.1 w.2.length = some w.2

/-- A service ends without a panic, in a valid store and with a step of the model. -/
def Good (s : PsosFiles) (m : M) (req : Request) (r : Except Panic (Served M)) : Prop :=
  ∃ code out s', r = .ok (code, s', deliver m out) ∧ Valid s' ∧
    (Model.ofStore s).Step req code out (Model.ofStore s') ∧ Landed (deliver m out) out

theorem landed_nil (m : M) : Landed m [] := fun _ h => nomatch h

theorem put_of_some {m : M} {a : UInt32} {bs : List UInt8}
    (h : (GuestMemory.ramMut m a bs.length).isSome) :
    put m a bs = .ok (GuestMemory.store m a bs) := if_pos h

theorem fileError_ne_zero : fileError ≠ 0 := by decide

section Services

variable {s : PsosFiles} {m : M} {req : Request} {code : UInt32}

/-- A request that is turned down, with nothing put into memory. -/
theorem Good.refused {s' : PsosFiles} (hs : Valid s) (hf : s'.files = s.files)
    (hh : s'.handles = s.handles) (hout : Model.cleared req = [])
    (hreq : (Model.ofStore s).Refuses req) (hcode : code ≠ 0) : Good s m req (.ok (code, s', m)) := by
  refine ⟨code, [], s', rfl, hs.of_eq hf hh, ?_, landed_nil m⟩
  rw [ofStore_eq hf hh, ← hout]
  exact .refused hreq hcode

theorem create_good (hs : Valid s) (m : M) (args : List UInt32) :
    Good s m (.create (guestFilename m (args.getD 0 0))) (s.create m args) := by
  unfold PsosFiles.create
  split
  · next name hname =>
    rw [hname]
    split_ifs with h
    · have hnone : s.files[name]? = none := Option.isNone_iff_eq_none.mp h.1
      refine ⟨0, [], _, rfl, hs.insert_file ?_ (.inr h.2), ?_, landed_nil m⟩
      · simpa [hnone] using hs.total
      · rw [ofStore_insert_file]
        exact .created (by simp [Model.ofStore, hnone])
    · refine Good.refused hs (explain_files _ _ _) (explain_handles _ _ _) rfl ?_ (by decide)
      intro n hn hfree
      obtain rfl := Option.some.inj hn
      have hnone : s.files[name]?.isNone := by
        simpa [Model.ofStore] using hfree
      exact ofStore_crowded (Nat.not_lt.mp fun hlt => h ⟨hnone, hlt⟩)
  · next hname =>
    rw [hname]
    exact Good.refused hs (explain_files _ _ _) (explain_handles _ _ _) rfl
      (fun n hn => nomatch hn) (by decide)

theorem freeSlot_some {slot : UInt32} (h : s.freeSlot = some slot) :
    slot ∈ Model.slots ∧ s.handles[slot]? = none :=
  ⟨List.mem_of_find?_eq_some h, by simpa using List.find?_some h⟩

theorem freeSlot_none (h : s.freeSlot = none) : ∀ slot ∈ Model.slots, s.handles[slot]? ≠ none := by
  intro slot hslot hnone
  have := List.find?_eq_none.mp h slot hslot
  simp [hnone] at this

theorem openable_iff {name : String} : s.openable name = true ↔
    s.files[name]? ≠ none ∧ ∀ (k : UInt32) (h : Handle), s.handles[k]? = some h → h.name ≠ name := by
  simp only [PsosFiles.openable, Bool.and_eq_true, Bool.not_eq_true', List.any_eq_false,
    Option.isSome_iff_ne_none, beq_iff_eq]
  refine and_congr_right fun _ => ⟨fun h k x hk => h x (value_mem hk), fun h x hx => ?_⟩
  obtain ⟨k, hk⟩ := mem_values.mp hx
  exact h k x hk

theorem openFile_good (hs : Valid s) (m : M) (args : List UInt32) :
    Good s m (.openFile (args.getD 0 0) (GuestMemory.ramMut m (args.getD 0 0) 4).isSome
      (guestFilename m (args.getD 1 0))) (s.openFile m args) := by
  unfold PsosFiles.openFile
  dsimp only
  generalize guestFilename m (args.getD 1 0) = name
  generalize args.getD 0 0 = out
  cases hram : GuestMemory.ramMut m out 4 with
  | none =>
    rw [if_pos Option.isNone_none]
    exact Good.refused hs rfl rfl rfl (fun h : false = true => by cases h) fileError_ne_zero
  | some old =>
    have hput : put m out [0, 0, 0, 0] = .ok (GuestMemory.store m out [0, 0, 0, 0]) :=
      put_of_some (by simp [hram])
    have hzero : Landed (GuestMemory.store m out [0, 0, 0, 0]) [(out, [0, 0, 0, 0])] := by
      rintro w ⟨⟩
      exact GuestMemory.ram_store m out [0, 0, 0, 0] (by simp [hram])
    have hcleared (f : M → Except Panic (Served M)) :
        (.ok (GuestMemory.store m out [0, 0, 0, 0]) >>= f) =
          f (GuestMemory.store m out [0, 0, 0, 0]) := rfl
    -- The handle is cleared; what follows turns on a free slot and on the name.
    rw [if_neg (by simp), hput, hcleared]
    cases hslot : s.freeSlot with
    | none => exact ⟨0, [(out, [0, 0, 0, 0])], s, rfl, hs, .noSlot (freeSlot_none hslot), hzero⟩
    | some slot =>
      obtain ⟨hmem, hfree⟩ := freeSlot_some hslot
      have hrefuse : (∀ n, name = some n → s.openable n = false) →
          Good s m (.openFile out true name)
            (.ok (fileError, s.explain 0x20d fileError, GuestMemory.store m out [0, 0, 0, 0])) := by
        intro hname
        refine ⟨fileError, [(out, [0, 0, 0, 0])], _, rfl,
          hs.of_eq (explain_files _ _ _) (explain_handles _ _ _), ?_, hzero⟩
        rw [ofStore_eq (explain_files _ _ _) (explain_handles _ _ _)]
        refine .refused (fun _ => ⟨⟨slot, hmem, hfree⟩, fun n hn => ?_⟩) fileError_ne_zero
        have hnot := hname n hn
        rw [← Bool.not_eq_true, openable_iff, not_and_or, not_not] at hnot
        refine hnot.imp (fun h => by simp [Model.ofStore, h]) fun h => ?_
        simp only [not_forall, not_not] at h
        obtain ⟨k, x, hk, hx⟩ := h
        exact ⟨k, x, hk, hx⟩
      cases name with
      | none => exact hrefuse fun n hn => by cases hn
      | some name =>
        by_cases hopen : s.openable name
        · obtain ⟨hfile, hshut⟩ := openable_iff.mp hopen
          have hagain : (GuestMemory.ramMut (GuestMemory.store m out [0, 0, 0, 0]) out
              (wordBytes slot).length).isSome :=
            (GuestMemory.ram_available m out _ out 4 (by simp [hram])).trans (by simp [hram])
          simp only [hopen, if_true, put_of_some hagain]
          refine ⟨0, [(out, [0, 0, 0, 0]), (out, wordBytes slot)], _, rfl,
            hs.insert_handle hmem (Option.ne_none_iff_exists'.mp hfile) (Nat.zero_le _), ?_, ?_⟩
          · rw [ofStore_insert_handle]
            exact .opened (by simpa [Model.ofStore] using hfile) hmem hfree hshut
          · rintro w ⟨⟩
            exact GuestMemory.ram_store _ out _ hagain
        · simp only [hopen]
          exact hrefuse fun n hn => by
            obtain rfl := Option.some.inj hn
            exact Bool.not_eq_true _ ▸ hopen

theorem fileOf_some {h : Handle} {f : HostFile} (hf : s.files[h.name]? = some f) :
    s.fileOf h = .ok f := by
  rw [PsosFiles.fileOf, hf]

/-- A handle that is open moves. -/
theorem Valid.moveTo (hs : Valid s) {key : UInt32} {h : Handle} {offset : Nat}
    (hkey : s.handles[key]? = some h) (hoffset : offset ≤ capacity) :
    Valid (s.moveTo key h offset) :=
  hs.insert_handle (hs.slots key h hkey) (hs.present key h hkey) hoffset

/-- Whether the count and so many bytes can be put where a read puts them. -/
def fits (m : M) (buffer countAt : UInt32) (n : Nat) : Bool :=
  (GuestMemory.ramMut m countAt 4).isSome &&
    (n == 0 || (GuestMemory.ramMut m buffer n).isSome)

theorem slice_of_le {xs : List UInt8} {offset amount : Nat} (h : offset + amount ≤ xs.length) :
    slice xs offset (offset + amount) = .ok ((xs.drop offset).take amount) := by
  rw [slice, if_pos ⟨by omega, h⟩, Nat.add_sub_cancel_left]

theorem size_le_total {name : String} {f : HostFile} (hf : s.files[name]? = some f) :
    f.bytes.length ≤ s.total := by
  have hsum := total_insert s name ⟨[], [], false⟩
  simp only [hf, Option.map_some, Option.getD_some, List.length_nil] at hsum
  omega

theorem read_good (hs : Valid s) (m : M) (args : List UInt32) :
    Good s m (.read (args.getD 0 0) (args.getD 2 0).toNat (args.getD 1 0) (args.getD 3 0)
      (fits m (args.getD 1 0) (args.getD 3 0))) (s.read m args) := by
  unfold PsosFiles.read
  dsimp only
  generalize args.getD 0 0 = key, args.getD 1 0 = buffer, args.getD 2 0 = count,
    args.getD 3 0 = countAt
  by_cases hbad : capacity < count.toNat ∨ (GuestMemory.ramMut m countAt 4).isNone
  · rw [if_pos hbad]
    refine Good.refused hs rfl rfl rfl (fun h f _ _ hcap => ?_) fileError_ne_zero
    have hnone := hbad.resolve_left (Nat.not_lt.mpr hcap)
    simp [fits, Option.isNone_iff_eq_none.mp hnone]
  rw [if_neg hbad]
  have hcount : (GuestMemory.ramMut m countAt 4).isSome := by
    simpa [Option.isSome_iff_ne_none] using fun h => hbad (.inr h)
  cases hkey : s.handles[key]? with
  | none =>
    refine Good.refused hs rfl rfl rfl (fun h f hh => ?_) fileError_ne_zero
    exact nomatch hkey.symm.trans hh
  | some h =>
    obtain ⟨f, hf⟩ := hs.present key h hkey
    change Good s m _ (s.fileOf h >>= fun f => _)
    rw [fileOf_some hf]
    change Good s m _ (if _ then _ else _)
    have hfile : (Model.ofStore s).files h.name = some (Sparse.ofList 0 f.bytes) := by
      simp [Model.ofStore, hf]
    generalize hamount : min count.toNat (f.bytes.length - h.offset) = amount
    have hlen : ((Sparse.ofList (0 : UInt8) f.bytes).read h.offset count.toNat).length = amount := by
      rw [Sparse.length_read, ← hamount]
      rfl
    have hdata : (f.bytes.drop h.offset).take amount =
        (Sparse.ofList 0 f.bytes).read h.offset count.toNat := by
      rw [Sparse.read_ofList, List.take_eq_take_iff, List.length_drop]
      omega
    have hmoved : h.offset + amount ≤ capacity := by
      have hsize := size_le_total hf
      have htotal := hs.total
      have hoffset := hs.offsets key h hkey
      omega
    have hstep : ∀ out, out = (countAt, wordBytes (UInt32.ofNat amount)) ::
          Model.dataStores buffer ((Sparse.ofList 0 f.bytes).read h.offset count.toNat) →
        (Model.ofStore s).Step
          (.read key count.toNat buffer countAt (fits m buffer countAt)) 0 out
          (Model.ofStore (s.moveTo key h (h.offset + amount))) := by
      rintro _ rfl
      rw [PsosFiles.moveTo, ofStore_insert_handle, ← hlen]
      exact .read hkey hfile
    have hput : put m countAt (wordBytes (UInt32.ofNat amount)) =
        .ok (GuestMemory.store m countAt (wordBytes (UInt32.ofNat amount))) := put_of_some hcount
    by_cases hpos : 0 < amount
    · cases hroom : GuestMemory.ramMut m buffer amount with
      | none =>
        rw [if_pos ⟨hpos, Option.isNone_none⟩]
        refine Good.refused hs rfl rfl rfl (fun h' f' hh hf' _ => ?_) fileError_ne_zero
        obtain rfl := Option.some.inj (hkey.symm.trans hh)
        obtain rfl := Option.some.inj (hfile.symm.trans hf')
        simp [fits, hlen, hroom, Nat.pos_iff_ne_zero.mp hpos]
      | some old =>
        rw [if_neg (by simp), hput]
        change Good s m _ (if _ then _ else _)
        rw [if_pos hpos, slice_of_le (by omega), hdata]
        generalize (Sparse.ofList (0 : UInt8) f.bytes).read h.offset count.toNat = data at *
        have hthere : (GuestMemory.ramMut
            (GuestMemory.store m countAt (wordBytes (UInt32.ofNat amount))) buffer
            data.length).isSome := by
          rw [GuestMemory.ram_available m countAt (wordBytes _) _ _ hcount, hlen, hroom]
          rfl
        change Good s m _ (put _ buffer data >>= fun m => _)
        rw [put_of_some hthere]
        obtain ⟨b, bs, rfl⟩ := List.exists_cons_of_length_pos (hlen ▸ hpos)
        refine ⟨0, _, _, rfl, hs.moveTo hkey hmoved, hstep _ rfl, ?_⟩
        rintro w ⟨⟩
        exact GuestMemory.ram_store _ buffer _ hthere
    · rw [if_neg (fun hc => hpos hc.1), hput]
      change Good s m _ (if _ then _ else _)
      rw [if_neg hpos]
      have hnil : (Sparse.ofList (0 : UInt8) f.bytes).read h.offset count.toNat = [] :=
        List.eq_nil_of_length_eq_zero (by omega)
      rw [hnil] at hstep
      refine ⟨0, _, _, rfl, hs.moveTo hkey hmoved, hstep _ rfl, ?_⟩
      rintro w ⟨⟩
      exact GuestMemory.ram_store m countAt _ hcount

theorem seekBase_eq (hs : Valid s) {key : UInt32} {h : Handle} (hkey : s.handles[key]? = some h)
    (whence : UInt32) : s.seekBase h whence = .ok ((Model.ofStore s).base h whence) := by
  obtain ⟨f, hf⟩ := hs.present key h hkey
  unfold PsosFiles.seekBase Model.base
  split_ifs
  · rfl
  · rfl
  · rw [fileOf_some hf]
    simp only [Model.ofStore, hf]
    rfl
  · rfl

theorem seek_good (hs : Valid s) (m : M) (args : List UInt32) :
    Good s m (.seek (args.getD 0 0) (args.getD 1 0) (PsosFiles.signed (args.getD 2 0)))
      (s.seek m args) := by
  unfold PsosFiles.seek
  generalize args.getD 0 0 = key, args.getD 1 0 = whence, args.getD 2 0 = delta
  cases hkey : s.handles[key]? with
  | none =>
    refine Good.refused hs rfl rfl rfl (fun h b hh => ?_) fileError_ne_zero
    exact nomatch hkey.symm.trans hh
  | some h =>
    change Good s m _ (s.seekBase h whence >>= fun base => _)
    rw [seekBase_eq hs hkey]
    cases hbase : (Model.ofStore s).base h whence with
    | none =>
      refine Good.refused hs rfl rfl rfl (fun h' b hh hb => ?_) fileError_ne_zero
      obtain rfl := Option.some.inj (hkey.symm.trans hh)
      exact nomatch hbase.symm.trans hb
    | some base =>
      change Good s m _ (if _ then _ else _)
      by_cases hin : 0 ≤ (base : Int) + PsosFiles.signed delta ∧
          (base : Int) + PsosFiles.signed delta ≤ capacity
      · rw [if_neg (not_not.mpr hin)]
        obtain ⟨position, hposition⟩ := Int.eq_ofNat_of_zero_le hin.1
        have hcap : position ≤ capacity := by omega
        rw [hposition]
        have hstep : (Model.ofStore s).Step (.seek key whence (PsosFiles.signed delta))
            (if position = 0 then 0 else fileError) []
            (Model.ofStore (s.moveTo key h position)) := by
          rw [PsosFiles.moveTo, ofStore_insert_handle]
          exact .sought hkey hbase hposition.symm hcap
        change Good s m _ (if _ then _ else _)
        by_cases hzero : position = 0
        · rw [if_pos hzero] at hstep
          rw [if_pos (by omega)]
          exact ⟨0, [], _, rfl, hs.moveTo hkey hcap, hstep, landed_nil m⟩
        · rw [if_neg hzero] at hstep
          rw [if_neg (by omega)]
          exact ⟨fileError, [], _, rfl, (hs.moveTo hkey hcap).of_eq rfl rfl, hstep, landed_nil m⟩
      · rw [if_pos hin]
        refine Good.refused hs (explain_files _ _ _) (explain_handles _ _ _) rfl
          (fun h' b hh hb => ?_) fileError_ne_zero
        obtain rfl := Option.some.inj (hkey.symm.trans hh)
        obtain rfl := Option.some.inj (hbase.symm.trans hb)
        exact hin

theorem close_good (hs : Valid s) (m : M) (args : List UInt32) :
    Good s m (.close (args.getD 0 0)) (s.close m args) := by
  unfold PsosFiles.close
  generalize args.getD 0 0 = key
  cases hkey : s.handles[key]? with
  | none =>
    rw [if_neg (by simp)]
    exact Good.refused hs (explain_files _ _ _) (explain_handles _ _ _) rfl hkey fileError_ne_zero
  | some h =>
    rw [if_pos Option.isSome_some]
    refine ⟨0, [], _, rfl, hs.erase_handle key, ?_, landed_nil m⟩
    rw [ofStore_erase_handle]
    exact .closed hkey

/-- The bytes of a write, where they can be read and are in RAM. -/
def input (m : M) (source count : UInt32) : Option (List UInt8) :=
  if capacity < count.toNat then none
  else if count = 0 then some []
  else if (GuestMemory.ramMut m source count.toNat).isNone then none
  else GuestMemory.bytes m source count.toNat

theorem write_good (hs : Valid s) (m : M) (args : List UInt32) (room : Bool) :
    Good s m (.write (args.getD 0 0) (input m (args.getD 1 0) (args.getD 2 0)) room)
      (s.write m args room) := by
  unfold PsosFiles.write
  generalize args.getD 0 0 = key, args.getD 1 0 = source, args.getD 2 0 = count
  cases hkey : s.handles[key]? with
  | none =>
    refine Good.refused hs rfl rfl rfl (fun h f ys hh => ?_) fileError_ne_zero
    exact nomatch hkey.symm.trans hh
  | some h =>
    dsimp only
    have hnoInput : input m source count = none →
        Good s m (.write key (input m source count) room) (.ok (fileError, s, m)) := by
      intro hin
      refine Good.refused hs rfl rfl rfl (fun h' f ys _ _ hys => ?_) fileError_ne_zero
      exact nomatch hin.symm.trans hys
    by_cases hbig : capacity < count.toNat
    · rw [if_pos hbig]
      exact hnoInput (if_pos hbig)
    rw [if_neg hbig]
    by_cases hzero : count.toNat = 0
    · have hin : input m source count = some [] := by
        rw [input, if_neg hbig, if_pos (UInt32.toNat_inj.mp hzero)]
      rw [if_pos hzero, hin]
      exact ⟨0, [], s, rfl, hs, .wroteNothing hkey, landed_nil m⟩
    rw [if_neg hzero]
    have hin : input m source count = if (GuestMemory.ramMut m source count.toNat).isNone then none
        else GuestMemory.bytes m source count.toNat := by
      rw [input, if_neg hbig, if_neg (fun h => hzero (congrArg UInt32.toNat h))]
    cases hbytes : GuestMemory.bytes m source count.toNat with
    | none => exact hnoInput (by rw [hin, hbytes, ite_self])
    | some ys =>
      dsimp only
      by_cases hram : (GuestMemory.ramMut m source count.toNat).isNone
      · rw [if_pos hram]
        exact hnoInput (by rw [hin, if_pos hram])
      rw [if_neg hram]
      rw [if_neg hram, hbytes] at hin
      obtain ⟨f, hf⟩ := hs.present key h hkey
      have hfile : (Model.ofStore s).files h.name = some (Sparse.ofList 0 f.bytes) := by
        simp [Model.ofStore, hf]
      have hlen : ys.length = count.toNat := GuestMemory.length_bytes m source _ ys hbytes
      have hne : ys ≠ [] := fun h => hzero (by rw [← hlen, h]; rfl)
      have htotal := hs.total
      rw [fileOf_some hf, hin, ← hlen]
      -- What is left are the grounds on which the write finds no room.
      have hrefuse : ∀ s' : PsosFiles, s'.files = s.files → s'.handles = s.handles →
          (capacity < h.offset + ys.length ∨
            (Model.ofStore s).Full (h.offset + ys.length - f.bytes.length) ∨ room = false) →
          Good s m (.write key (some ys) room) (.ok (fileError, s', m)) := by
        intro s' hfiles hhandles hwhy
        refine Good.refused hs hfiles hhandles rfl (fun h' f' ys' hh hf' hys => ?_) fileError_ne_zero
        obtain rfl := Option.some.inj (hkey.symm.trans hh)
        obtain rfl := Option.some.inj (hfile.symm.trans hf')
        obtain rfl := Option.some.inj hys
        exact ⟨hne, hwhy⟩
      change Good s m _ (if _ then _ else _)
      by_cases hstop : capacity < h.offset + ys.length
      · rw [if_pos hstop]
        exact hrefuse _ (explain_files _ _ _) (explain_handles _ _ _) (.inl hstop)
      rw [if_neg hstop, if_neg (Nat.not_lt.mpr htotal)]
      by_cases hgrow : capacity - s.total < h.offset + ys.length - f.bytes.length
      · rw [if_pos hgrow]
        exact hrefuse _ (explain_files _ _ _) (explain_handles _ _ _)
          (.inr (.inl (ofStore_full (by omega))))
      rw [if_neg hgrow]
      cases room with
      | false =>
        rw [if_pos (by decide)]
        exact hrefuse s rfl rfl (.inr (.inr rfl))
      | true =>
        rw [if_neg (by decide)]
        have hgrown : (PsosFiles.written f.bytes h.offset ys).length =
            max (h.offset + ys.length) f.bytes.length := by
          rw [PsosFiles.written, length_overwrite (by rw [length_resize]; omega), length_resize]
        have hvalid : Valid { s with
            files := s.files.insert h.name
              { f with bytes := PsosFiles.written f.bytes h.offset ys } } := by
          refine hs.insert_file ?_ (.inl (by simp [hf]))
          rw [hf]
          simp only [hgrown, Option.map_some, Option.getD_some]
          omega
        refine ⟨0, [], _, rfl, hvalid.moveTo hkey (Nat.not_lt.mp hstop), ?_, landed_nil m⟩
        rw [PsosFiles.moveTo, ofStore_insert_handle, ofStore_insert_file, PsosFiles.written,
          Sparse.ofList_overwrite]
        exact .wrote hkey hfile hne

end Services

/-! ## One call -/

/-- What the arguments of a service ask for. -/
def request (op : UInt32) (m : M) (args : List UInt32) (room : Bool) : Request :=
  if op = 0x208 then .create (guestFilename m (args.getD 0 0))
  else if op = 0x20d then
    .openFile (args.getD 0 0) (GuestMemory.ramMut m (args.getD 0 0) 4).isSome
      (guestFilename m (args.getD 1 0))
  else if op = 0x20f then
    .read (args.getD 0 0) (args.getD 2 0).toNat (args.getD 1 0) (args.getD 3 0)
      (fits m (args.getD 1 0) (args.getD 3 0))
  else if op = 0x20e then
    .seek (args.getD 0 0) (args.getD 1 0) (PsosFiles.signed (args.getD 2 0))
  else if op = 0x210 then
    .write (args.getD 0 0) (input m (args.getD 1 0) (args.getD 2 0)) room
  else if op = 0x214 then .close (args.getD 0 0)
  else .nothing

theorem serve_good {s : PsosFiles} (hs : Valid s) (op : UInt32) (m : M) (args : List UInt32)
    (room : Bool) : Good s m (request op m args room) (s.serve op m args room) := by
  unfold request PsosFiles.serve
  split_ifs
  · exact create_good hs m args
  · exact openFile_good hs m args
  · exact read_good hs m args
  · exact seek_good hs m args
  · exact write_good hs m args room
  · exact close_good hs m args
  · exact ⟨0, [], s, rfl, hs, .nothing, landed_nil m⟩

/-- What a call asks for, with its arguments on the stack. -/
def requestOf (op sp : UInt32) (m : M) (room : Bool) : Request :=
  match PsosFiles.argCount op with
  | none => .nothing
  | some count =>
    match PsosFiles.readArgs m sp 0 count with
    | .error _ => .unread
    | .ok args => request op m args room

/-- A call is left alone, or it is served as one step of the model. -/
theorem dispatch_good {s : PsosFiles} (hs : Valid s) (op sp : UInt32) (m : M) (room : Bool) :
    s.dispatch op sp m room = .ok (none, s, m) ∨
      ∃ code out s', s.dispatch op sp m room = .ok (some code, s', deliver m out) ∧ Valid s' ∧
        (Model.ofStore s).Step (requestOf op sp m room) code out (Model.ofStore s') ∧
        Landed (deliver m out) out := by
  unfold PsosFiles.dispatch requestOf
  cases PsosFiles.argCount op with
  | none => exact .inl rfl
  | some count =>
    dsimp only
    by_cases henabled : s.enabled
    · rw [if_neg (not_not.mpr henabled)]
      refine .inr ?_
      have hcounted : Valid { s with calls := s.calls + 1, lastError := "" } := hs.of_eq rfl rfl
      cases PsosFiles.readArgs m sp 0 count with
      | error text =>
        exact ⟨fileError, [], _, rfl, hs.of_eq rfl rfl, .refused trivial fileError_ne_zero,
          landed_nil m⟩
      | ok args =>
        obtain ⟨code, out, s', hserve, hvalid, hstep, hlanded⟩ :=
          serve_good hcounted op m args room
        dsimp only
        rw [hserve]
        exact ⟨code, out, s', rfl, hvalid, hstep, hlanded⟩
    · rw [if_pos henabled]
      exact .inl rfl

/-! ## Runs -/

/-- A call with the memory as the guest has it, or a reset of the machine. -/
inductive Action (M : Type) where
  | service (op sp : UInt32) (m : M) (room : Bool)
  | reset

def step : Except Panic PsosFiles → Action M → Except Panic PsosFiles
  | .error p, _ => .error p
  | .ok s, .service op sp m room => (s.dispatch op sp m room).map fun r => r.2.1
  | .ok s, .reset => .ok s.resetDescriptors

/-- The stores that a machine can start with. -/
inductive Start : PsosFiles → Prop
  | disabled : Start PsosFiles.default
  | staged : Start PsosFiles.staged
  | seeded (files) {s} (h : PsosFiles.seed files = .ok s) (calls : Nat) : Start { s with calls }

theorem Valid.of_empty {s : PsosFiles} (hf : s.files = ∅) (hh : s.handles = ∅) : Valid s := by
  refine ⟨?_, ?_, ?_, ?_, ?_⟩
  · simp [hh]
  · simp [hh]
  · simp [hh]
  · rw [PsosFiles.total, hf]
    exact Nat.zero_le _
  · simp [hf]

theorem seedFrom_valid {s s' : PsosFiles} {total : Nat} {files : List (String × List UInt8)}
    (hs : Valid s) (htotal : s.total = total) (h : s.seedFrom total files = .ok s') : Valid s' := by
  induction files generalizing s total with
  | nil =>
    obtain rfl := Except.ok.inj h
    exact hs
  | cons e rest ih =>
    obtain ⟨name, bytes⟩ := e
    rw [PsosFiles.seedFrom] at h
    generalize String.ofList (name.toList.map Char.toUpper) = name at h
    split_ifs at h with hbad
    simp only [not_or, Nat.not_lt, Nat.not_le, Bool.not_eq_true, Option.isSome_eq_false_iff,
      Option.isNone_iff_eq_none] at hbad
    obtain ⟨-, hcap, hcount, hnew⟩ := hbad
    have hsum := total_insert s name ⟨bytes, bytes, false⟩
    rw [hnew] at hsum
    refine ih (hs.insert_file ?_ (.inr hcount)) ?_ h
    · rw [hnew]
      simp only [Option.map_none, Option.getD_none]
      omega
    · simpa [htotal] using hsum

theorem Start.valid {s : PsosFiles} (h : Start s) : Valid s := by
  cases h with
  | disabled => exact .of_empty rfl rfl
  | staged => exact .of_empty rfl rfl
  | seeded files h calls =>
    exact Valid.of_eq (seedFrom_valid (.of_empty rfl rfl) rfl h) rfl rfl

theorem Valid.reset {s : PsosFiles} (hs : Valid s) : Valid s.resetDescriptors where
  slots := by simp [PsosFiles.resetDescriptors]
  present := by simp [PsosFiles.resetDescriptors]
  offsets := by simp [PsosFiles.resetDescriptors]
  total := hs.total
  count := hs.count

/-- No panic so far, and a valid store. -/
def Sound (r : Except Panic PsosFiles) : Prop := ∃ s, r = .ok s ∧ Valid s

theorem step_sound {r : Except Panic PsosFiles} (a : Action M) (h : Sound r) : Sound (step r a) := by
  obtain ⟨s, rfl, hs⟩ := h
  cases a with
  | reset => exact ⟨_, rfl, hs.reset⟩
  | service op sp m room =>
    rw [step]
    obtain hleft | ⟨code, out, s', hserved, hvalid, -, -⟩ := dispatch_good hs op sp m room
    · rw [hleft]
      exact ⟨s, rfl, hs⟩
    · rw [hserved]
      exact ⟨s', rfl, hvalid⟩

/-- Every run keeps the store valid, and no service of it panics. -/
theorem store_stays_valid {s : PsosFiles} (h : Start s) (actions : List (Action M)) :
    Always step Sound (.ok s) actions :=
  always_invariant (fun _ a => step_sound a) actions ⟨s, rfl, h.valid⟩

theorem seeded_stays_valid : ∃ s, PsosFiles.seed [("a.bin", [1, 2])] = .ok s ∧
    Always step Sound (.ok { s with calls := 3 })
      [.service 0x20d 0 (⟨List.replicate 64 0⟩ : TestMemory) true, .reset] :=
  ⟨_, rfl, store_stays_valid (.seeded [("a.bin", [1, 2])] rfl 3) _⟩

/-! ## Runs of the model -/

/-- The step that the model makes of an action. -/
def Refined : Except Panic PsosFiles → Action M → Prop
  | .error _, _ => False
  | .ok s, .reset => Model.ofStore s.resetDescriptors = { Model.ofStore s with handles := fun _ => none }
  | .ok s, .service op sp m room =>
    s.dispatch op sp m room = .ok (none, s, m) ∨
      ∃ code out s', s.dispatch op sp m room = .ok (some code, s', deliver m out) ∧
        (Model.ofStore s).Step (requestOf op sp m room) code out (Model.ofStore s') ∧
        Landed (deliver m out) out ∧
        (code ≠ 0 → (Model.ofStore s).LeftAlone (requestOf op sp m room) (Model.ofStore s'))

theorem refined_of_sound {r : Except Panic PsosFiles} (a : Action M) (h : Sound r) :
    Refined r a := by
  obtain ⟨s, rfl, hs⟩ := h
  cases a with
  | reset =>
    ext1
    · rfl
    · funext key
      simp [Model.ofStore, PsosFiles.resetDescriptors]
  | service op sp m room =>
    obtain hleft | ⟨code, out, s', hserved, -, hstep, hlanded⟩ := dispatch_good hs op sp m room
    · exact .inl hleft
    · exact .inr ⟨code, out, s', hserved, hstep, hlanded, hstep.failed⟩

/-- What a file of the store holds. -/
def contents (name : String) : Except Panic PsosFiles → Sparse (0 : UInt8)
  | .error _ => Sparse.empty
  | .ok s => (Model.ofStore s).contents name

/-- The write that an action has made to a file. -/
def writesTo (name : String) : Except Panic PsosFiles → Action M → List (Nat × List UInt8)
  | .ok s, .service op sp m room =>
    match s.dispatch op sp m room with
    | .ok (some code, _, _) => (Model.ofStore s).accepted (requestOf op sp m room) code name
    | _ => []
  | _, _ => []

theorem contents_step {r : Except Panic PsosFiles} (name : String) (a : Action M) (h : Sound r) :
    contents name (step r a) = (contents name r).writeAll (writesTo name r a) := by
  obtain ⟨s, rfl, hs⟩ := h
  cases a with
  | reset => rfl
  | service op sp m room =>
    rw [step, writesTo]
    obtain hleft | ⟨code, out, s', hserved, -, hstep, -⟩ := dispatch_good hs op sp m room
    · rw [hleft]
      rfl
    · rw [hserved]
      exact hstep.contents name

/-- What a file holds at the end: what it held at first, and every write that was made to it. -/
theorem contents_run {r : Except Panic PsosFiles} (h : Sound r) (name : String)
    (actions : List (Action M)) : contents name (run step r actions) =
      (contents name r).writeAll (log step (writesTo name) r actions) :=
  @log_replay _ _ _ _ _ _ (contents name) Sparse.writeAll _ (fun _ => rfl) Sparse.writeAll_append
    (fun _ a => step_sound a) (fun _ a h => contents_step name a h) _ actions h

/-- A read that succeeds finds in every place what was written there last, or what was there before
the writes. -/
def ReadsBack (M : Type) [GuestMemory M] (before : String → Sparse (0 : UInt8))
    (writes : String → List (Nat × List UInt8)) (s : PsosFiles) : Prop :=
  ∀ (sp : UInt32) (m m' : M) (room : Bool) (s' : PsosFiles),
    s.dispatch 0x20f sp m room = .ok (some 0, s', m') →
    ∃ key count buffer countAt h data,
      requestOf 0x20f sp m room = .read key count buffer countAt (fits m buffer countAt) ∧
      s.handles[key]? = some h ∧
      data = ((before h.name).writeAll (writes h.name)).read h.offset count ∧
      (∀ i < data.length, data[i]? = some
        ((Sparse.lastWritten 0 (writes h.name) (h.offset + i)).getD
          ((before h.name).get (h.offset + i)))) ∧
      m' = deliver m ((countAt, wordBytes (UInt32.ofNat data.length)) ::
        Model.dataStores buffer data) ∧
      (data ≠ [] → GuestMemory.ramMut m' buffer data.length = some data) ∧
      Model.ofStore s' = (Model.ofStore s).setHandle key
        (some { h with offset := h.offset + data.length })

theorem requestOf_read (sp : UInt32) (m : M) (room : Bool) :
    requestOf 0x20f sp m room = .unread ∨ ∃ key count buffer countAt,
      requestOf 0x20f sp m room = .read key count buffer countAt (fits m buffer countAt) := by
  rw [requestOf, show PsosFiles.argCount 0x20f = some 4 from rfl]
  dsimp only
  split
  · exact .inl rfl
  · exact .inr ⟨_, _, _, _, rfl⟩

theorem readsBack {s : PsosFiles} (hs : Valid s) {before : String → Sparse (0 : UInt8)}
    {writes : String → List (Nat × List UInt8)}
    (h : ∀ name, (Model.ofStore s).contents name = (before name).writeAll (writes name)) :
    ReadsBack M before writes s := by
  intro sp m m' room s' hread
  obtain hleft | ⟨code, out, s'', hserved, -, hstep, hlanded⟩ := dispatch_good hs 0x20f sp m room
  · rw [hleft] at hread
    cases hread
  rw [hserved] at hread
  obtain ⟨rfl, rfl, rfl⟩ : code = 0 ∧ s'' = s' ∧ deliver m out = m' := by
    simpa using hread
  generalize Model.ofStore s'' = after at hstep ⊢
  obtain hunread | ⟨key, count, buffer, countAt, hreq⟩ := requestOf_read sp m room
  · rw [hunread] at hstep
    cases hstep with
    | refused _ hcode => exact absurd rfl hcode
  rw [hreq] at hstep
  cases hstep with
  | refused _ hcode => exact absurd rfl hcode
  | @read _ _ _ _ _ hd f hkey hfile =>
    have hcontents : f = (before hd.name).writeAll (writes hd.name) := by
      rw [← h hd.name, Model.contents, hfile]
      rfl
    refine ⟨key, count, buffer, countAt, hd, _, hreq, hkey, by rw [← hcontents], ?_, rfl, ?_, rfl⟩
    · intro i hi
      rw [Sparse.read_get hi, hcontents, Sparse.writeAll_get]
    · intro hne
      obtain ⟨b, bs, hdata⟩ := List.exists_cons_of_ne_nil hne
      rw [hdata] at hlanded ⊢
      exact hlanded (buffer, b :: bs) rfl

/-- Every service of every run is a step of the model, and a read at the end of it finds what was
written. -/
theorem store_refines {s : PsosFiles} (h : Start s) (actions : List (Action M)) :
    Each step Refined (.ok s) actions ∧
      ∃ s', run step (.ok s) actions = .ok s' ∧
        ReadsBack M (fun name => contents name (.ok s))
          (fun name => log step (writesTo name) (.ok s) actions) s' := by
  have hsound : Sound (.ok s) := ⟨s, rfl, h.valid⟩
  refine ⟨.of_invariant (fun _ a => step_sound a) (fun _ a => refined_of_sound a) actions hsound, ?_⟩
  obtain ⟨s', hrun, hs'⟩ := run_invariant (fun _ a => step_sound a) actions hsound
  refine ⟨s', hrun, readsBack hs' fun name => ?_⟩
  have hname := contents_run hsound name actions
  rw [hrun] at hname
  exact hname

theorem seeded_refines : ∃ s, PsosFiles.seed [("a.bin", [1, 2])] = .ok s ∧
    let actions := [.service 0x20d 0 (⟨List.replicate 64 0⟩ : TestMemory) true, .reset]
    Each step Refined (.ok { s with calls := 3 }) actions ∧
      ∃ s', run step (.ok { s with calls := 3 }) actions = .ok s' ∧
        ReadsBack TestMemory (fun name => contents name (.ok { s with calls := 3 }))
          (fun name => log step (writesTo name) (.ok { s with calls := 3 }) actions) s' :=
  ⟨_, rfl, store_refines (.seeded [("a.bin", [1, 2])] rfl 3) _⟩

end OpenSaab.Files
