import CleanSlate.Elf.LoadPlan
import Mathlib.Data.List.Pairwise

/-!
# What an accepted load plan guarantees

Every segment of an accepted plan passed `validate_segment`, the segments are apart, and the entry is in
one that can be executed. The address of the program-header table is that of its first byte: the table
is in a segment there exactly when the first segment with that byte in its file bytes has them all.
-/

namespace CleanSlate.Elf

open Lib List

variable {header : Elf64Header} {scan scan' : PhdrScan} {plan : LoadPlan}

/-! ## Segments -/

@[simp] theorem checkedAdd_eq_some {a b c : Nat} :
    checkedAdd a b = some c ↔ a + b < 2 ^ 64 ∧ a + b = c := by
  simp [checkedAdd]

/-- The address is one of the segment's memory. -/
def LoadSegment.Covers (self : LoadSegment) (addr : Nat) : Prop :=
  self.vaddr ≤ addr ∧ addr < self.vaddr + self.memsz

/-- The two segments have no address in common. -/
def LoadSegment.Apart (self other : LoadSegment) : Prop :=
  ∀ addr, self.Covers addr → ¬other.Covers addr

instance : Std.Symm LoadSegment.Apart := ⟨fun _ _ h addr hcovers hcovers' => h addr hcovers' hcovers⟩

/-- The segment has the file byte at `offset`. -/
def LoadSegment.Backs (self : LoadSegment) (offset : Nat) : Prop :=
  self.fileOffset ≤ offset ∧ offset < self.fileOffset + self.filesz
deriving Decidable

structure LoadSegment.Sound (s : LoadSegment) (policy : LoadPlanPolicy) (fileLen : Nat) : Prop where
  window : policy.userVaLo ≤ s.vaddr ∧ s.vaddr + s.memsz ≤ policy.userVaHi
  canonical : s.vaddr + s.memsz ≤ 2 ^ 47
  file : s.fileOffset + s.filesz ≤ fileLen
  fits : s.filesz ≤ s.memsz
  writeExecute : policy.rejectWriteExecute → ¬(s.perms.write ∧ s.perms.execute)

variable {bytes : List UInt8} {policy : LoadPlanPolicy} {fileLen phoff : Nat}
  {segment : LoadSegment} {segments : List LoadSegment}

theorem validateSegment_sound (h : validateSegment segment fileLen policy = .ok ()) :
    segment.Sound policy fileLen ∧ segment.fileOffset + segment.filesz < 2 ^ 64 := by
  simp only [validateSegment, ite_error_eq_ok, bind_eq_ok, okOr_eq_ok, checkedAdd_eq_some,
    isCanonicalUser, Bool.not_eq_true', decide_eq_false_iff_not] at h
  obtain ⟨hsz, _, ⟨hfileEnd, rfl⟩, hfl, _, ⟨-, rfl⟩, hcn, hwn, -, -, -, -, hwx, -⟩ := h
  refine ⟨⟨?_, ?_, ?_, ?_, fun hrj hbt => hwx ⟨hrj, hbt⟩⟩, hfileEnd⟩ <;> omega

theorem scanPhdr_segments {index : Nat} (h : scanPhdr bytes policy header scan index = .ok scan') :
    scan'.segments = scan.segments ∨ ∃ segment, validateSegment segment bytes.length policy = .ok () ∧
      scan'.segments = scan.segments ++ [segment] := by
  simp only [scanPhdr, bind_eq_ok, okOr_eq_ok, mapError_eq_ok, ite_error_eq_ok] at h
  obtain ⟨_, -, _, -, _, -, -, pType, -, h⟩ := h
  split at h
  · cases h
    exact .inl rfl
  split at h
  · cases h
    exact .inl rfl
  split at h
  · cases h
    exact .inl rfl
  simp only [bind_eq_ok, ite_error_eq_ok] at h
  obtain ⟨segment, -, ⟨⟩, hvl, -, h⟩ := h
  cases h
  exact .inr ⟨segment, hvl, rfl⟩

theorem scan_valid {indices : List Nat}
    (hsc : ∀ s ∈ scan.segments, validateSegment s bytes.length policy = .ok ())
    (h : indices.foldlM (scanPhdr bytes policy header) scan = .ok scan') :
    ∀ s ∈ scan'.segments, validateSegment s bytes.length policy = .ok () := by
  induction indices generalizing scan with
  | nil =>
    cases h
    exact hsc
  | cons index indices ih =>
    rw [foldlM_cons, bind_eq_ok] at h
    obtain ⟨next, hnx, h⟩ := h
    refine ih (fun s hs => ?_) h
    rcases scanPhdr_segments hnx with heq | ⟨segment, hvl, heq⟩
    · exact hsc s (heq ▸ hs)
    · rw [heq] at hs
      rcases mem_append.1 hs with hs | hs
      · exact hsc s hs
      · exact mem_singleton.1 hs ▸ hvl

/-! ## The checks over all segments -/

theorem checkApart_ok {left right : LoadSegment}
    (h : checkApart left (left.vaddr + left.memsz) right = .ok ()) : left.Apart right := by
  rintro addr ⟨hlo, hhi⟩ ⟨hlo', hhi'⟩
  have hrg : right.memsz ≠ 0 := by omega
  simp only [checkApart, if_neg hrg, bind_eq_ok, okOr_eq_ok, checkedAdd_eq_some,
    ite_error_eq_ok] at h
  omega

theorem detectOverlaps_ok (h : detectOverlaps segments = .ok ()) :
    segments.Pairwise LoadSegment.Apart := by
  induction segments with
  | nil => exact .nil
  | cons left rest ih =>
    unfold detectOverlaps at h
    split at h
    · next hem =>
      refine .cons (fun right _ addr hcv => ?_) (ih h)
      unfold LoadSegment.Covers at hcv
      omega
    · simp only [bind_eq_ok, okOr_eq_ok, checkedAdd_eq_some] at h
      obtain ⟨_, ⟨-, rfl⟩, ⟨⟩, hleftApart, hrs⟩ := h
      exact .cons (fun right hrg => checkApart_ok (forM_ok.1 hleftApart right hrg)) (ih hrs)

theorem validateEntryInExecutable_ok {entry : Nat}
    (h : validateEntryInExecutable entry segments = .ok ()) :
    ∃ s ∈ segments, s.perms.execute ∧ s.Covers entry := by
  induction segments with
  | nil => cases h
  | cons segment rest ih =>
    have hlt : validateEntryInExecutable entry rest = .ok () →
        ∃ s ∈ segment :: rest, s.perms.execute ∧ s.Covers entry := by
      intro hrs
      obtain ⟨s, hs, hbt⟩ := ih hrs
      exact ⟨s, mem_cons_of_mem _ hs, hbt⟩
    unfold validateEntryInExecutable at h
    split at h
    · exact hlt h
    · next hex =>
      simp only [bind_eq_ok, okOr_eq_ok, checkedAdd_eq_some] at h
      obtain ⟨_, ⟨-, rfl⟩, h⟩ := h
      split at h
      · next hen =>
        have hbt : segment.perms.execute := by simpa using (not_or.1 hex).1
        exact ⟨segment, mem_cons_self, hbt, hen⟩
      · exact hlt h

/-- The address found is that of the first byte of the table, in the first segment that has it. -/
theorem resolvePhdrVaddr_eq (hvl : ∀ s ∈ segments, validateSegment s fileLen policy = .ok ()) :
    resolvePhdrVaddr phoff segments = (segments.find? fun s => s.Backs phoff).map fun s =>
      s.vaddr + (phoff - s.fileOffset) := by
  induction segments with
  | nil => rfl
  | cons segment rest ih =>
    obtain ⟨hsn, hfl⟩ := validateSegment_sound (hvl segment mem_cons_self)
    have hend : checkedAdd segment.fileOffset segment.filesz =
      some (segment.fileOffset + segment.filesz) := checkedAdd_eq_some.2 ⟨hfl, rfl⟩
    simp only [resolvePhdrVaddr, hend, Option.bind_eq_bind, Option.bind_some]
    by_cases hbc : segment.Backs phoff
    · rw [find?_cons_of_pos (by simpa using hbc)]
      refine (if_pos hbc).trans (checkedAdd_eq_some.2 ⟨?_, rfl⟩)
      have hcn := hsn.canonical
      have hft := hsn.fits
      unfold LoadSegment.Backs at hbc
      omega
    · rw [find?_cons_of_neg (by simpa using hbc)]
      exact (if_neg hbc).trans (ih fun s hs => hvl s (mem_cons_of_mem _ hs))

/-! ## Plans -/

/-- The segment has all file bytes of the program-header table. -/
def LoadPlan.TableIn (self : LoadPlan) (s : LoadSegment) : Prop :=
  s.fileOffset ≤ self.phoff ∧ self.phoff + self.phnum * self.phentsize ≤ s.fileOffset + s.filesz

structure LoadPlan.Sound (plan : LoadPlan) (policy : LoadPlanPolicy) (fileLen : Nat) : Prop where
  segments : ∀ s ∈ plan.segments, s.Sound policy fileLen
  apart : plan.segments.Pairwise LoadSegment.Apart
  entry : ∃ s ∈ plan.segments, s.perms.execute ∧ s.Covers plan.entry
  phdr : ∀ addr, plan.phdrVaddr = some addr →
    ∃ s ∈ plan.segments, plan.TableIn s ∧ addr = s.vaddr + (plan.phoff - s.fileOffset)

/-- What the parser has checked when it returns a plan. -/
theorem parseLoadPlan_checked (h : parseLoadPlan bytes policy = .ok plan) :
    (∀ s ∈ plan.segments, validateSegment s bytes.length policy = .ok ()) ∧
      detectOverlaps plan.segments = .ok () ∧
      validateEntryInExecutable plan.entry plan.segments = .ok () ∧
      plan.phdrVaddr = resolvePhdrVaddr plan.phoff plan.segments ∧ 0 < plan.phnum * plan.phentsize := by
  simp only [parseLoadPlan, ite_error_eq_ok, bind_eq_ok, okOr_eq_ok, pure_eq_ok] at h
  obtain ⟨-, -, header, hhd, -, _, -, _, -, -, -, scan, hsc, hsm, ⟨⟩, hap, ⟨⟩, hen, rfl⟩ := h
  refine ⟨scan_valid (forall_mem_nil _) hsc, hap, hen, rfl, ?_⟩
  have hsz : header.ePhentsize = elf64PhdrSize := by
    simp only [Elf64Header.parse, ite_error_eq_ok, bind_eq_ok, Except.ok.injEq] at hhd
    obtain ⟨-, -, -, -, -, _, -, _, -, -, _, -, -, _, -, _, -, _, -, _, -, hsz, rfl⟩ := hhd
    exact not_not.1 hsz
  have hnum : header.ePhnum ≠ 0 := by
    intro hzr
    rw [hzr] at hsc
    cases hsc
    exact hsm rfl
  simp only [hsz, elf64PhdrSize]
  omega

/-- **An accepted plan is sound exactly when the reported table is whole.** Of every plan that is
accepted the segments are in the window, in the user half and in the file, apart from each other and
not both writable and executable against the policy, and the entry can be executed; and the
program-header table is at the reported address exactly when the first segment with its first byte has
all of it. -/
theorem loadPlan_sound_iff {plan : LoadPlan} (h : parseLoadPlan bytes policy = .ok plan) :
    plan.Sound policy bytes.length ↔
      ∀ s, plan.segments.find? (fun s => s.Backs plan.phoff) = some s → plan.TableIn s := by
  obtain ⟨hvl, hov, hen, hph, hpos⟩ := parseLoadPlan_checked h
  have hsn := fun s hs => (validateSegment_sound (hvl s hs)).1
  have hap := detectOverlaps_ok hov
  rw [resolvePhdrVaddr_eq hvl] at hph
  constructor
  · intro hpl s hs
    have hmem := mem_of_find?_eq_some hs
    obtain ⟨t, ht, htb, had⟩ := hpl.phdr (s.vaddr + (plan.phoff - s.fileOffset))
      (by rw [hph, hs]; rfl)
    -- the segment with the table covers the same address, so it is the one that was found
    have hcv : s.Covers (s.vaddr + (plan.phoff - s.fileOffset)) := by
      have hbc : s.Backs plan.phoff := by simpa using find?_some hs
      have hft := (hsn s hmem).fits
      unfold LoadSegment.Backs at hbc
      unfold LoadSegment.Covers
      omega
    have hcv' : t.Covers (t.vaddr + (plan.phoff - t.fileOffset)) := by
      have hft := (hsn t ht).fits
      unfold LoadPlan.TableIn at htb
      unfold LoadSegment.Covers
      omega
    rw [← had] at hcv'
    by_contra hnot
    have hne : s ≠ t := by
      rintro rfl
      exact hnot htb
    exact hap.forall hmem ht hne _ hcv hcv'
  · intro hwh
    refine ⟨hsn, hap, validateEntryInExecutable_ok hen, fun addr had => ?_⟩
    rw [hph] at had
    obtain ⟨s, hs, rfl⟩ := Option.map_eq_some_iff.1 had
    exact ⟨s, mem_of_find?_eq_some hs, hwh s hs, rfl⟩

/-- An executable with one segment, of the first `filesz` bytes of the file, and a second, empty,
program header. -/
def twoHeaders (filesz : Nat) : List UInt8 :=
  [0x7f, 0x45, 0x4c, 0x46, 2, 1, 1] ++ toLe 9 0 ++ toLe 2 etExec ++ toLe 2 emX8664 ++ toLe 4 1 ++
    toLe 8 0x400000 ++ toLe 8 64 ++ toLe 14 0 ++ toLe 2 56 ++ toLe 2 2 ++ toLe 6 0 ++
    (toLe 4 ptLoad ++ toLe 4 5 ++ toLe 8 0 ++ toLe 8 0x400000 ++ toLe 8 0 ++ toLe 8 filesz ++
      toLe 8 filesz ++ toLe 8 4096) ++ toLe 56 0

def twoHeadersPlan (filesz : Nat) : LoadPlan :=
  ⟨0x400000, some 0x400040, 64, 56, 2, [⟨0x400000, filesz, 0, filesz, 4096, ⟨true, false, true⟩⟩],
    false, false, etExec⟩

theorem loadPlan_sound_two_headers :
    parseLoadPlan (twoHeaders 176) .linuxConventionalX8664 = .ok (twoHeadersPlan 176) ∧
      (twoHeadersPlan 176).Sound .linuxConventionalX8664 (twoHeaders 176).length := by
  have hpl : parseLoadPlan (twoHeaders 176) .linuxConventionalX8664 = .ok (twoHeadersPlan 176) := by
    decide +kernel
  refine ⟨hpl, (loadPlan_sound_iff hpl).2 ?_⟩
  rintro s ⟨⟩
  exact ⟨by decide, by decide⟩

/-- The address of the table is reported, and the segment ends inside its first row. -/
theorem partial_table_reported :
    parseLoadPlan (twoHeaders 100) .linuxConventionalX8664 = .ok (twoHeadersPlan 100) ∧
      ¬(twoHeadersPlan 100).Sound .linuxConventionalX8664 (twoHeaders 100).length := by
  refine ⟨by decide +kernel, fun h => ?_⟩
  obtain ⟨s, hs, ⟨-, hend⟩, -⟩ := h.phdr 0x400040 rfl
  rw [mem_singleton.1 hs] at hend
  exact absurd hend (by decide)

end CleanSlate.Elf
