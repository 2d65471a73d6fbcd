import MiniWorld.Lib.Effect
import MiniWorld.Lib.PosixPath
import MiniWorld.Lib.Shlex

/-!
# Overlay images

`create_qemu_overlay_image` and `_build_qemu_overlay_images_command` of `Qemu`, and
`fmt_cmd_template`, which every command line goes through before it is split.
`qemu-img` itself is outside; the images it is called for are the state.

The loop over the images appends `cmd + " " + drive` to `cmd`, so that it doubles
what it has. With a second image the command line has more drives than images,
whatever the images are called: a letter of the drives is counted in the text
(`count_accumulated_le`) and in its words, where none is lost.

With one image it has its drive, if no character of the file name ends a word or is
taken away (`argv_mountDisk_iff`). The overlay is named after the file without its
suffix, in one directory for all of them, so it may be the one of the base image.
-/

namespace MiniWorld.Emulation

open MiniWorld.Lib MiniWorld.Lib.PosixPath MiniWorld.Lib.Shlex

/-! ## Command lines -/

/-- `\s` -/
def isSpace (c : Char) : Bool :=
  let n := c.toNat
  (9 ≤ n && n ≤ 13) || (28 ≤ n && n ≤ 32) || n = 0x85 || n = 0xa0 || n = 0x1680 ||
    (0x2000 ≤ n && n ≤ 0x200a) || n = 0x2028 || n = 0x2029 || n = 0x202f || n = 0x205f || n = 0x3000

/-- `re.sub("\s+", " ", cmd)`, where the character before is white space or not -/
def collapse : Bool → Text → Text
  | _, [] => []
  | behindSpace, c :: t =>
    if isSpace c then (if behindSpace then collapse true t else ' ' :: collapse true t)
    else c :: collapse false t

def fmtCmdTemplate (cmd : Text) : Text := collapse false cmd

/-- The arguments that a command line is run with. -/
def argv (cmd : Text) : Option (List Text) := shlexSplit (fmtCmdTemplate cmd)

/-! ## The overlay of an image -/

inductive QemuExc where
  | valueError
deriving DecidableEq, Repr

/-- An overlay image that has been created. -/
structure OverlayImage where
  baseImagePath : Text
  overlayImagePath : Text
deriving DecidableEq, Repr

/-- `PATH_TMP` -/
def pathTmp : Text := "/tmp/MiniWorld".toList

def getTempFilePath (fileName : Text) : Text := join pathTmp fileName

/-- `CMD_TEMPLATE_QEMU_CREATE_OVERLAY_IMAGE` -/
def cmdTemplateQemuCreateOverlayImage (baseImagePath overlayImagePath : Text) : Text :=
  "\nqemu-img create\n    -b \"".toList ++ baseImagePath ++ "\"\n    -f qcow2\n    \"".toList ++
    overlayImagePath ++ "\"\n".toList

/-- `CMD_TEMPLATE_QEMU_MOUNT_DISK` -/
def cmdTemplateQemuMountDisk (imagePath : Text) (index : Nat) : Text :=
  "\n-drive file=".toList ++ imagePath ++ ",index=".toList ++ decimal index ++ ",media=disk\n".toList

/-- The image name without file suffix. -/
def imageName (baseImagePath : Text) : Text := (splitext (basename baseImagePath)).1

/-- The path of the overlay of an image, for the node `id`. -/
def overlayImagePath (id : Nat) (baseImagePath : Text) : Text :=
  getTempFilePath (imageName baseImagePath ++ "_overlay_".toList ++ decimal id ++ ".img".toList)

/-- `run_shell`, up to the call of the program -/
def runShell (cmd : Text) : EStateM QemuExc (List OverlayImage) (List Text) :=
  getOrThrow .valueError (argv cmd)

/-- `create_qemu_overlay_image` -/
def createQemuOverlayImage (id : Nat) (baseImagePath : Text) :
    EStateM QemuExc (List OverlayImage) Text := do
  let overlay := overlayImagePath id baseImagePath
  let _args ← runShell (cmdTemplateQemuCreateOverlayImage baseImagePath overlay)
  modify (· ++ [⟨baseImagePath, overlay⟩])
  pure overlay

/-- One turn of the loop: the next index, and the command with one more drive. -/
def addDrive (acc : Nat × Text) (overlay : Text) : Nat × Text :=
  (acc.1 + 1, acc.2 ++ (acc.2 ++ ' ' :: cmdTemplateQemuMountDisk overlay acc.1))

/-- `_build_qemu_overlay_images_command` -/
def buildQemuOverlayImagesCommand (id : Nat) (cwd : Text) (images : List Text) :
    EStateM QemuExc (List OverlayImage) Text := do
  let acc ← images.foldlM
    (fun acc imagePath => do
      let overlay ← createQemuOverlayImage id (abspath cwd imagePath)
      pure (addDrive acc overlay))
    (1, [])
  pure acc.2

/-- What `_build_qemu_command` puts into the QEMU command line: the overlay of the base image, and
the drives of the overlay images. -/
def buildQemuImages (id : Nat) (cwd : Text) (realpath : Text → Text) (base : Text)
    (images : List Text) : EStateM QemuExc (List OverlayImage) (Text × Text) := do
  let overlay ← createQemuOverlayImage id (realpath (abspath cwd base))
  let drives ← buildQemuOverlayImagesCommand id cwd images
  pure (overlay, drives)

/-! ## White space -/

/-- **Only white space is changed.** -/
theorem filter_collapse (behindSpace : Bool) (t : Text) :
    (collapse behindSpace t).filter (!isSpace ·) = t.filter (!isSpace ·) := by
  induction t generalizing behindSpace with
  | nil => rfl
  | cons c t ih =>
    rw [collapse]
    split
    next hc =>
      rw [List.filter_cons_of_neg (by simp [hc])]
      split
      next => exact ih true
      next =>
        rw [List.filter_cons_of_neg (by decide)]
        exact ih true
    next hc => rw [List.filter_cons_of_pos (by simp [hc]), List.filter_cons_of_pos (by simp [hc]), ih]

/-- What is counted in a text without its white space. -/
theorem countP_fmtCmdTemplate {p : Char → Bool} (hp : ∀ c, p c = true → isSpace c = false) (t : Text) :
    (fmtCmdTemplate t).countP p = t.countP p := by
  have hcount (l : Text) : l.countP p = (l.filter (!isSpace ·)).countP p := by
    rw [List.countP_filter]
    refine List.countP_congr fun c _ => ?_
    rw [Bool.and_eq_true, Bool.not_eq_true']
    exact ⟨fun h => ⟨h, hp c h⟩, fun h => h.1⟩
  rw [hcount, hcount t]
  exact congrArg _ (filter_collapse false t)

theorem mem_collapse {behindSpace : Bool} {t : Text} {c : Char} (h : c ∈ collapse behindSpace t) :
    c = ' ' ∨ c ∈ t ∧ isSpace c = false := by
  induction t generalizing behindSpace with
  | nil => exact absurd h List.not_mem_nil
  | cons d t ih =>
    have hrest {b : Bool} (h : c ∈ collapse b t) : c = ' ' ∨ c ∈ d :: t ∧ isSpace c = false :=
      (ih h).imp_right fun h => ⟨List.mem_cons_of_mem d h.1, h.2⟩
    rw [collapse] at h
    split at h
    next =>
      split at h
      next => exact hrest h
      next =>
        rcases List.mem_cons.1 h with rfl | h
        · exact Or.inl rfl
        · exact hrest h
    next hd =>
      rcases List.mem_cons.1 h with rfl | h
      · exact Or.inr ⟨List.mem_cons_self .., Bool.eq_false_iff.2 hd⟩
      · exact hrest h

theorem collapse_space {c : Char} (hc : isSpace c = true) (t : Text) :
    collapse false (c :: t) = ' ' :: collapse true t := by
  rw [collapse, if_pos hc, if_neg Bool.false_ne_true]

theorem collapse_append {w : Text} (hne : w ≠ []) (hw : ∀ c ∈ w, isSpace c = false)
    (behindSpace : Bool) (t : Text) : collapse behindSpace (w ++ t) = w ++ collapse false t := by
  induction w generalizing behindSpace with
  | nil => exact absurd rfl hne
  | cons c w ih =>
    rw [List.cons_append, collapse, if_neg (by simp [hw c (List.mem_cons_self ..)])]
    cases w with
    | nil => rfl
    | cons d w =>
      rw [ih (List.cons_ne_nil d w) (fun c hc => hw c (List.mem_cons_of_mem _ hc)) false]
      rfl

theorem isSpace_of_isBlank {c : Char} (h : isBlank c = true) : isSpace c = true := by
  rcases isBlank_iff.1 h with rfl | rfl | rfl | rfl <;> decide

theorem not_isSpace_of_isSpecial {c : Char} (h : isSpecial c = true) : isSpace c = false := by
  have hcases : c = '\'' ∨ c = '"' ∨ c = '\\' := by
    by_contra hnone
    rw [not_or, not_or] at hnone
    have hquote : quoteOf c = none := by
      unfold quoteOf
      rw [if_neg hnone.1, if_neg hnone.2.1]
    exact absurd (isSpecial_eq_false_iff.2 ⟨hquote, hnone.2.2⟩) (by simp [h])
  rcases hcases with rfl | rfl | rfl <;> decide

/-! ## The images that are created -/

/-- The command line for `qemu-img` can be split: no quote of the paths is left open. -/
def Creatable (id : Nat) (baseImagePath : Text) : Prop :=
  (argv (cmdTemplateQemuCreateOverlayImage baseImagePath (overlayImagePath id baseImagePath))).isSome

/-- The entry of an image. -/
def overlayOf (id : Nat) (baseImagePath : Text) : OverlayImage :=
  ⟨baseImagePath, overlayImagePath id baseImagePath⟩

section

variable {id : Nat} {cwd : Text} {Q : Text → List OverlayImage → Prop}
  {E : QemuExc → List OverlayImage → Prop}

theorem wp_createQemuOverlayImage {baseImagePath : Text} {created : List OverlayImage}
    (hok : Creatable id baseImagePath →
      Q (overlayImagePath id baseImagePath) (created ++ [overlayOf id baseImagePath]))
    (herr : ¬ Creatable id baseImagePath → E .valueError created) :
    wp (createQemuOverlayImage id baseImagePath) created Q E := by
  unfold createQemuOverlayImage runShell
  simp only [wp_bind]
  unfold Creatable at hok herr
  cases hargv : argv (cmdTemplateQemuCreateOverlayImage baseImagePath
      (overlayImagePath id baseImagePath)) with
  | none =>
    rw [hargv] at herr
    exact herr (by simp)
  | some args =>
    rw [hargv] at hok
    exact hok rfl

/-- The loop over the images. -/
theorem wp_images (images : List Text) (acc : Nat × Text) (created : List OverlayImage) :
    wp (images.foldlM
      (fun acc imagePath => do
        let overlay ← createQemuOverlayImage id (abspath cwd imagePath)
        pure (addDrive acc overlay)) acc) created
      (fun acc' created' => (∀ p ∈ images, Creatable id (abspath cwd p)) ∧
        acc' = (images.map fun p => overlayImagePath id (abspath cwd p)).foldl addDrive acc ∧
        created' = created ++ images.map fun p => overlayOf id (abspath cwd p))
      (fun _ _ => ∃ p ∈ images, ¬ Creatable id (abspath cwd p)) := by
  induction images generalizing acc created with
  | nil => exact ⟨by simp, rfl, (List.append_nil created).symm⟩
  | cons p images ih =>
    rw [List.foldlM_cons, wp_bind, wp_bind]
    refine wp_createQemuOverlayImage (fun hcreatable => ?_) (fun hnot => ⟨p, List.mem_cons_self .., hnot⟩)
    rw [wp_pure]
    refine wp_mono (ih _ _) ?_ ?_
    · rintro acc' created' ⟨hall, hacc, hcreated⟩
      refine ⟨List.forall_mem_cons.2 ⟨hcreatable, hall⟩, hacc, ?_⟩
      rw [hcreated, List.append_assoc]
      rfl
    · rintro e created' ⟨q, hq, hnot⟩
      exact ⟨q, List.mem_cons_of_mem p hq, hnot⟩

/-- **What is built and created.** -/
theorem wp_buildQemuImages (id : Nat) (cwd : Text) (realpath : Text → Text) (base : Text)
    (images : List Text) :
    wp (buildQemuImages id cwd realpath base images) []
      (fun r created => (Creatable id (realpath (abspath cwd base)) ∧
          ∀ p ∈ images, Creatable id (abspath cwd p)) ∧
        r.2 = ((images.map fun p => overlayImagePath id (abspath cwd p)).foldl addDrive (1, [])).2 ∧
        created = overlayOf id (realpath (abspath cwd base)) ::
          images.map fun p => overlayOf id (abspath cwd p))
      (fun _ _ => ¬ (Creatable id (realpath (abspath cwd base)) ∧
        ∀ p ∈ images, Creatable id (abspath cwd p))) := by
  unfold buildQemuImages buildQemuOverlayImagesCommand
  simp only [wp_bind, wp_pure]
  refine wp_createQemuOverlayImage (fun hbase => ?_) (fun hnot h => hnot h.1)
  refine wp_mono (wp_images images (1, []) _) ?_ ?_
  · rintro acc created ⟨hall, hacc, hcreated⟩
    exact ⟨⟨hbase, hall⟩, congrArg Prod.snd hacc, hcreated⟩
  · rintro e created ⟨p, hp, hnot⟩ ⟨-, hall⟩
    exact hnot (hall p hp)

end

/-! ## The drives -/

/-- The option of a drive. -/
def driveOption (path : Text) (index : Nat) : Text :=
  "file=".toList ++ path ++ ",index=".toList ++ decimal index ++ ",media=disk".toList

/-- The arguments for one drive: its path and its index. -/
def driveArguments (drive : Text × Nat) : List Text :=
  ["-drive".toList, driveOption drive.1 drive.2]

/-- A drive is its arguments and white space. -/
theorem mountDisk_eq (path : Text) (index : Nat) : cmdTemplateQemuMountDisk path index =
    '\n' :: ("-drive".toList ++ ' ' :: (driveOption path index ++ ['\n'])) := by
  have hfile : "\n-drive file=".toList = '\n' :: ("-drive".toList ++ ' ' :: "file=".toList) := by
    decide
  have hmedia : ",media=disk\n".toList = ",media=disk".toList ++ ['\n'] := by decide
  unfold cmdTemplateQemuMountDisk driveOption
  rw [hfile, hmedia]
  simp only [List.cons_append, List.append_assoc]

theorem countP_mountDisk {p : Char → Bool} (hspace : ¬ p ' ' = true) (hnewline : ¬ p '\n' = true)
    (path : Text) (index : Nat) : (cmdTemplateQemuMountDisk path index).countP p =
      (driveArguments (path, index)).flatten.countP p := by
  unfold driveArguments
  rw [mountDisk_eq, List.countP_cons_of_neg hnewline, List.countP_append,
    List.countP_cons_of_neg hspace, List.countP_append, List.countP_singleton, if_neg hnewline,
    Nat.add_zero, List.flatten_cons, List.flatten_singleton, List.countP_append]

/-! ## Too many drives -/

/-- A letter that is in every drive, and in no index. -/
def letter : Char := 'k'

theorem count_decimal (n : Nat) : (decimal n).count letter = 0 := by
  have hne : ∀ c ∈ decimal n, c ≠ letter := forall_mem_decimal (by decide) n
  exact List.count_eq_zero.2 fun h => hne letter h rfl

theorem count_driveArguments (drive : Text × Nat) :
    (driveArguments drive).flatten.count letter = drive.1.count letter + 1 := by
  have hdrive : "-drive".toList.count letter = 0 := by decide
  have hfile : "file=".toList.count letter = 0 := by decide
  have hindex : ",index=".toList.count letter = 0 := by decide
  have hmedia : ",media=disk".toList.count letter = 1 := by decide
  unfold driveArguments driveOption
  rw [List.flatten_cons, List.flatten_singleton, List.count_append, List.count_append,
    List.count_append, List.count_append, List.count_append, hdrive, hfile, hindex, hmedia,
    count_decimal]
  omega

/-- How often the letter is in the drives, each counted once. -/
def countDrives (overlays : List Text) : Nat := (overlays.map fun o => o.count letter + 1).sum

theorem count_flatMap_driveArguments (drives : List (Text × Nat)) :
    (drives.flatMap driveArguments).flatten.count letter = countDrives (drives.map Prod.fst) := by
  induction drives with
  | nil => rfl
  | cons drive drives ih =>
    rw [List.flatMap_cons, List.flatten_append, List.count_append, ih, count_driveArguments]
    rfl

theorem count_addDrive (acc : Nat × Text) (overlay : Text) :
    (addDrive acc overlay).2.count letter =
      2 * acc.2.count letter + (overlay.count letter + 1) := by
  have hspace : ' ' ≠ letter := by decide
  have hdrive : (cmdTemplateQemuMountDisk overlay acc.1).count letter = overlay.count letter + 1 :=
    (countP_mountDisk (by decide) (by decide) overlay acc.1).trans (count_driveArguments _)
  unfold addDrive
  rw [List.count_append, List.count_append, List.count_cons_of_ne hspace, hdrive]
  omega

/-- **The loop drops no drive**, -/
theorem count_accumulated_le (overlays : List Text) (acc : Nat × Text) :
    acc.2.count letter + countDrives overlays ≤ (overlays.foldl addDrive acc).2.count letter := by
  induction overlays generalizing acc with
  | nil => exact le_rfl
  | cons overlay overlays ih =>
    refine le_trans ?_ (ih (addDrive acc overlay))
    rw [count_addDrive]
    unfold countDrives
    rw [List.map_cons, List.sum_cons]
    omega

/-- and it repeats the first one where there is a second. -/
theorem countDrives_lt_count_accumulated (o o' : Text) (overlays : List Text) :
    countDrives (o :: o' :: overlays) <
      ((o :: o' :: overlays).foldl addDrive (1, [])).2.count letter := by
  have hrest := count_accumulated_le overlays (addDrive (addDrive (1, []) o) o')
  rw [count_addDrive, count_addDrive] at hrest
  refine lt_of_lt_of_le ?_ hrest
  unfold countDrives
  rw [List.map_cons, List.map_cons, List.sum_cons, List.sum_cons]
  omega

theorem count_fmtCmdTemplate (t : Text) : (fmtCmdTemplate t).count letter = t.count letter :=
  countP_fmtCmdTemplate (fun c hc => by rw [eq_of_beq hc]; decide) t

/-- An ordinary letter is in the arguments as often as in the command line. -/
theorem count_argv {cmd : Text} {args : List Text} (h : argv cmd = some args) :
    args.flatten.count letter = cmd.count letter := by
  have hord : isOrdinary letter = true := by decide
  calc args.flatten.count letter
      = (args.flatten.filter isOrdinary).count letter := (List.count_filter hord).symm
    _ = ((fmtCmdTemplate cmd).filter isOrdinary).count letter :=
        congrArg _ (filter_lex .space (fmtCmdTemplate cmd) h)
    _ = (fmtCmdTemplate cmd).count letter := List.count_filter hord
    _ = cmd.count letter := count_fmtCmdTemplate cmd

/-! ## One drive -/

/-- Neither white space, nor a quote or backslash. -/
def Plain (t : Text) : Prop := ∀ c ∈ t, isSpace c = false ∧ isSpecial c = false

instance decidablePlain (t : Text) : Decidable (Plain t) :=
  List.decidableBAll (fun c => isSpace c = false ∧ isSpecial c = false) t

theorem plain_append {s t : Text} : Plain (s ++ t) ↔ Plain s ∧ Plain t := List.forall_mem_append

theorem plain_decimal (n : Nat) : Plain (decimal n) := forall_mem_decimal (by decide) n

/-- The texts of a drive. -/
theorem plain_drive : Plain "-drive".toList := by decide +kernel

theorem plain_option :
    Plain "file=".toList ∧ Plain ",index=".toList ∧ Plain ",media=disk".toList := by
  decide +kernel

theorem Plain.isOrdinary {t : Text} (h : Plain t) {c : Char} (hc : c ∈ t) : isOrdinary c = true := by
  obtain ⟨hspace, hspecial⟩ := h c hc
  refine isOrdinary_iff.2 ⟨?_, hspecial⟩
  rw [Bool.eq_false_iff]
  intro hblank
  exact absurd (hspace.symm.trans (isSpace_of_isBlank hblank)) Bool.false_ne_true

theorem driveOption_ne_nil (path : Text) (index : Nat) : driveOption path index ≠ [] :=
  List.append_ne_nil_of_right_ne_nil _ (by decide)

theorem plain_driveOption_iff {path : Text} {index : Nat} :
    Plain (driveOption path index) ↔ Plain path := by
  obtain ⟨hfile, hindex, hmedia⟩ := plain_option
  unfold driveOption
  simp only [plain_append, hfile, hindex, hmedia, plain_decimal, true_and, and_true]

theorem fmtCmdTemplate_mountDisk {path : Text} (index : Nat) (h : Plain path) :
    fmtCmdTemplate (' ' :: cmdTemplateQemuMountDisk path index) =
      ' ' :: ("-drive".toList ++ ' ' :: (driveOption path index ++ [' '])) := by
  have hdrive : ∀ c ∈ "-drive".toList, isSpace c = false := fun c hc => (plain_drive c hc).1
  have hoption : ∀ c ∈ driveOption path index, isSpace c = false :=
    fun c hc => (plain_driveOption_iff.2 h c hc).1
  have hnewline : isSpace '\n' = true := by decide
  unfold fmtCmdTemplate
  rw [mountDisk_eq, collapse_space (by decide), collapse, if_pos hnewline, if_pos rfl,
    collapse_append (by decide) hdrive, collapse_space (by decide),
    collapse_append (driveOption_ne_nil path index) hoption,
    collapse_space hnewline]
  rfl

/-- **One drive is run with its arguments** exactly if its path is plain. -/
theorem argv_mountDisk_iff (path : Text) (index : Nat) :
    argv (' ' :: cmdTemplateQemuMountDisk path index) = some (driveArguments (path, index)) ↔
      Plain path := by
  constructor
  · intro h
    have hblank : ¬ isSpecial ' ' = true := by decide
    have hcount := countP_fmtCmdTemplate (fun _ => not_isSpace_of_isSpecial)
      (' ' :: cmdTemplateQemuMountDisk path index)
    rw [List.countP_cons_of_neg hblank, countP_mountDisk hblank (by decide)] at hcount
    -- a quote or backslash would be missing in the arguments
    have hnone : ∀ c ∈ fmtCmdTemplate (' ' :: cmdTemplateQemuMountDisk path index),
        isSpecial c = false := by
      intro c hc
      rw [Bool.eq_false_iff]
      intro hspecial
      have hlt := countP_lex_lt (s := .space) trivial h ⟨c, hc, hspecial⟩
      exact absurd (hlt.trans_eq hcount) (lt_irrefl _)
    intro c hc
    have hmem : c ∈ (driveArguments (path, index)).flatten := by
      unfold driveArguments driveOption
      simp only [List.flatten_cons, List.mem_append, hc, true_or, or_true]
    rcases mem_lex_of_not_isSpecial (s := .space) trivial h hnone hmem with hc' | ⟨hc', hblank⟩
    · exact absurd hc' List.not_mem_nil
    · refine ⟨?_, hnone c hc'⟩
      -- the only white space left is a blank
      rcases mem_collapse hc' with rfl | ⟨-, hspace⟩
      · exact absurd hblank (by decide)
      · exact hspace
  · intro h
    have hblank : isBlank ' ' = true := by decide
    unfold argv shlexSplit
    rw [fmtCmdTemplate_mountDisk index h, lex_blank hblank,
      lex_word (by decide) (fun c hc => plain_drive.isOrdinary hc) hblank,
      lex_word (driveOption_ne_nil path index)
        (fun c hc => (plain_driveOption_iff.2 h).isOrdinary hc) hblank]
    rfl

/-! ## The names of the overlays -/

theorem slash_notMem_imageName (p : Text) : '/' ∉ imageName p := fun h =>
  slash_notMem_basename p ((splitext_prefix_self (basename p)).subset h)

theorem slash_notMem_decimal (n : Nat) : '/' ∉ decimal n :=
  notMem_formatNat (by omega) (by omega) (by decide)

theorem overlayImagePath_eq (id : Nat) (p : Text) : overlayImagePath id p =
    pathTmp ++ '/' :: (imageName p ++ "_overlay_".toList ++ decimal id ++ ".img".toList) := by
  have hoverlay : '/' ∉ "_overlay_".toList := by decide
  have himg : '/' ∉ ".img".toList := by decide
  refine join_eq (by decide) (by decide) ?_
  simp only [List.mem_append, slash_notMem_imageName, hoverlay, slash_notMem_decimal, himg, or_self,
    not_false_eq_true]

/-- **Two overlays of a node are the same** if the images have the same name. -/
theorem overlayImagePath_inj (id : Nat) (p q : Text) :
    overlayImagePath id p = overlayImagePath id q ↔ imageName p = imageName q := by
  rw [overlayImagePath_eq, overlayImagePath_eq, List.append_cancel_left_eq, List.cons.injEq,
    List.append_cancel_right_eq, List.append_cancel_right_eq, List.append_cancel_right_eq]
  exact and_iff_right rfl

/-- Overlays share a path exactly if their images share a name. -/
theorem overlayOf_path_inj (id : Nat) (p q : Text) :
    (overlayOf id p).overlayImagePath = (overlayOf id q).overlayImagePath ↔
      imageName p = imageName q := by
  unfold overlayOf
  exact overlayImagePath_inj id p q

theorem plain_overlayImagePath_iff {id : Nat} {p : Text} :
    Plain (overlayImagePath id p) ↔ Plain (imageName p) := by
  have htmp : Plain pathTmp := by decide +kernel
  have hslash : Plain ['/'] := by decide +kernel
  have hoverlay : Plain "_overlay_".toList := by decide +kernel
  have himg : Plain ".img".toList := by decide +kernel
  rw [overlayImagePath_eq, ← List.singleton_append]
  simp only [plain_append, htmp, hslash, hoverlay, himg, plain_decimal, true_and, and_true]

/-! ## The claim on the command line -/

/-- The command line is built with one drive for each image, whose indices are those from 1 on, and
the overlays that have been created for different images are different. -/
def MountsEach (id : Nat) (cwd : Text) (realpath : Text → Text) (base : Text) (images : List Text) :
    Prop :=
  ∃ overlay cmd created,
    buildQemuImages id cwd realpath base images [] = .ok (overlay, cmd) created ∧
    (∃ drives : List (Text × Nat),
      List.Perm (drives.map Prod.fst) (images.map fun p => overlayImagePath id (abspath cwd p)) ∧
      List.Perm (drives.map Prod.snd) (List.range' 1 images.length) ∧
      argv cmd = some (drives.flatMap driveArguments)) ∧
    ∀ o ∈ created, ∀ o' ∈ created, o.baseImagePath ≠ o'.baseImagePath →
      o.overlayImagePath ≠ o'.overlayImagePath

section

variable {id : Nat} {cwd : Text} {realpath : Text → Text} {base : Text}

/-- The command line that is built, if one is. -/
theorem mountsEach_iff_of_run (images : List Text) : MountsEach id cwd realpath base images ↔
    (Creatable id (realpath (abspath cwd base)) ∧ ∀ p ∈ images, Creatable id (abspath cwd p)) ∧
    (∃ drives : List (Text × Nat),
      List.Perm (drives.map Prod.fst) (images.map fun p => overlayImagePath id (abspath cwd p)) ∧
      List.Perm (drives.map Prod.snd) (List.range' 1 images.length) ∧
      argv ((images.map fun p => overlayImagePath id (abspath cwd p)).foldl addDrive (1, [])).2 =
        some (drives.flatMap driveArguments)) ∧
    ∀ p ∈ realpath (abspath cwd base) :: images.map (abspath cwd),
      ∀ q ∈ realpath (abspath cwd base) :: images.map (abspath cwd), p ≠ q →
        imageName p ≠ imageName q := by
  have hrun := wp_buildQemuImages id cwd realpath base images
  have hmap : (overlayOf id (realpath (abspath cwd base)) ::
      images.map fun p => overlayOf id (abspath cwd p)) =
      (realpath (abspath cwd base) :: images.map (abspath cwd)).map (overlayOf id) := by
    rw [List.map_cons, List.map_map]
    rfl
  constructor
  · rintro ⟨overlay, cmd, created, hok, hdrives, hdiff⟩
    obtain ⟨hall, rfl, hcreated⟩ := wp_apply_ok hrun hok
    rw [hmap] at hcreated
    refine ⟨hall, hdrives, fun p hp q hq hne hname => ?_⟩
    have hp' : overlayOf id p ∈ created := hcreated ▸ List.mem_map_of_mem hp
    have hq' : overlayOf id q ∈ created := hcreated ▸ List.mem_map_of_mem hq
    exact hdiff _ hp' _ hq' hne ((overlayOf_path_inj id p q).2 hname)
  · rintro ⟨hall, hdrives, hdiff⟩
    cases hm : buildQemuImages id cwd realpath base images [] with
    | error e created =>
      have hnot := wp_apply_error hrun hm
      exact absurd hall hnot
    | ok r created =>
      obtain ⟨-, hcmd, hcreated⟩ := wp_apply_ok hrun hm
      rw [hmap] at hcreated
      rw [← hcmd] at hdrives
      refine ⟨r.1, r.2, created, hm, hdrives, fun o ho o' ho' hne => ?_⟩
      rw [hcreated] at ho ho'
      obtain ⟨p, hp, rfl⟩ := List.mem_map.1 ho
      obtain ⟨q, hq, rfl⟩ := List.mem_map.1 ho'
      intro hsame
      exact hdiff p hp q hq hne ((overlayOf_path_inj id p q).1 hsame)

/-- With two images or more there are too many drives. -/
theorem not_argv_of_two {o o' : Text} {overlays : List Text} {drives : List (Text × Nat)}
    (hpaths : List.Perm (drives.map Prod.fst) (o :: o' :: overlays)) :
    argv ((o :: o' :: overlays).foldl addDrive (1, [])).2 ≠ some (drives.flatMap driveArguments) := by
  intro h
  have hcount := count_argv h
  have hsum : countDrives (drives.map Prod.fst) = countDrives (o :: o' :: overlays) :=
    (hpaths.map _).sum_eq
  rw [count_flatMap_driveArguments, hsum] at hcount
  exact absurd (hcount ▸ countDrives_lt_count_accumulated o o' overlays) (lt_irrefl _)

/-- One image has the index 1. -/
theorem eq_of_perm_singleton {path : Text} {drives : List (Text × Nat)}
    (hpaths : List.Perm (drives.map Prod.fst) [path])
    (hindices : List.Perm (drives.map Prod.snd) [1]) : drives = [(path, 1)] := by
  obtain ⟨drive, rfl, hpath⟩ := List.map_eq_singleton_iff.1 (List.perm_singleton.1 hpaths)
  obtain ⟨_, hone, hindex⟩ := List.map_eq_singleton_iff.1 (List.perm_singleton.1 hindices)
  obtain rfl := List.singleton_inj.1 hone
  rw [← hpath, ← hindex]

/-- The drive of one image. -/
theorem exists_drives_singleton_iff (path : Text) :
    (∃ drives : List (Text × Nat), List.Perm (drives.map Prod.fst) [path] ∧
      List.Perm (drives.map Prod.snd) (List.range' 1 1) ∧
      argv ([path].foldl addDrive (1, [])).2 = some (drives.flatMap driveArguments)) ↔
    Plain path := by
  have hargs : [(path, 1)].flatMap driveArguments = driveArguments (path, 1) := List.append_nil _
  rw [← argv_mountDisk_iff path 1, ← hargs]
  constructor
  · rintro ⟨drives, hpaths, hindices, hargv⟩
    obtain rfl := eq_of_perm_singleton hpaths hindices
    exact hargv
  · intro hargv
    exact ⟨[(path, 1)], List.Perm.refl _, List.Perm.refl _, hargv⟩

/-- Two images with different names, unless they are one. -/
theorem forall_mem_pair_iff (p q : Text) :
    (∀ x ∈ [p, q], ∀ y ∈ [p, q], x ≠ y → imageName x ≠ imageName y) ↔
      q = p ∨ imageName q ≠ imageName p := by
  constructor
  · intro h
    by_cases hsame : q = p
    · exact Or.inl hsame
    · exact Or.inr (h q (by simp) p (by simp) hsame)
  · intro h x hx y hy hne
    rw [List.mem_pair] at hx hy
    rcases hx with rfl | rfl
    · rcases hy with rfl | rfl
      · exact absurd rfl hne
      · exact (h.resolve_left hne.symm).symm
    · rcases hy with rfl | rfl
      · exact h.resolve_left hne
      · exact absurd rfl hne

/-- **When the overlay images are mounted.** There is none, or one whose overlay is another one than
that of the base image and has a plain name; and the paths leave no quote open. -/
theorem mountsEach_iff (id : Nat) (cwd : Text) (realpath : Text → Text) (base : Text)
    (images : List Text) : MountsEach id cwd realpath base images ↔
      Creatable id (realpath (abspath cwd base)) ∧
      (images = [] ∨ ∃ image, images = [image] ∧ Creatable id (abspath cwd image) ∧
        Plain (imageName (abspath cwd image)) ∧
        (abspath cwd image = realpath (abspath cwd base) ∨
          imageName (abspath cwd image) ≠ imageName (realpath (abspath cwd base)))) := by
  rw [mountsEach_iff_of_run]
  match images with
  | [] =>
    constructor
    · rintro ⟨⟨hbase, -⟩, -, -⟩
      exact ⟨hbase, Or.inl rfl⟩
    · rintro ⟨hbase, -⟩
      refine ⟨⟨hbase, by simp⟩, ⟨[], List.Perm.refl _, List.Perm.refl _, rfl⟩, ?_⟩
      intro p hp q hq hne
      rw [List.map_nil, List.mem_singleton] at hp hq
      exact absurd (hp.trans hq.symm) hne
  | [image] =>
    rw [List.map_singleton, List.map_singleton, List.length_singleton, exists_drives_singleton_iff,
      plain_overlayImagePath_iff, forall_mem_pair_iff]
    constructor
    · rintro ⟨⟨hbase, hall⟩, hplain, hname⟩
      exact ⟨hbase, Or.inr ⟨image, rfl, hall image (List.mem_singleton_self _), hplain, hname⟩⟩
    · rintro ⟨hbase, h | ⟨image', himage, hcreatable, hplain, hname⟩⟩
      · exact absurd h (List.cons_ne_nil _ _)
      · obtain rfl := List.singleton_inj.1 himage
        exact ⟨⟨hbase, List.forall_mem_singleton.2 hcreatable⟩, hplain, hname⟩
  | image :: image' :: images =>
    refine iff_of_false ?_ ?_
    · rintro ⟨-, ⟨drives, hpaths, -, hargv⟩, -⟩
      exact not_argv_of_two hpaths hargv
    · rintro ⟨-, h | ⟨_, h, -⟩⟩
      · exact List.cons_ne_nil _ _ h
      · exact absurd (congrArg List.length h) (by simp)

/-- Two images: the drive of the first one is there twice. -/
theorem not_mountsEach_two : ¬ MountsEach 1 "/".toList (fun p => p) "/images/base.img".toList
    ["/images/a.img".toList, "/images/b.img".toList] := by
  rw [mountsEach_iff_of_run]
  rintro ⟨-, ⟨drives, hpaths, -, hargv⟩, -⟩
  exact not_argv_of_two hpaths hargv

end

end MiniWorld.Emulation
