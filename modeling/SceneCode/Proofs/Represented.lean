import SceneCode.Proofs.Nested
import SceneCode.Swift.Resource

/-!
# Commands made by the backend

The commands that the renderer is meant for hold only resources that the backend makes of scene
values, rounded to some precision, which may differ from one resource to the next; and so do all
commands inside them (`Represented`). These are the converted streams (`represented_map`) and what
can be put together from their parts.

Not all values of the types of resources are made so. The colours of a gradient, above all, are
then in the space of red, green and blue (`IsRepresentation.space_eq_rgb`), which is the only space
that the declaration of a gradient provides for.
-/

namespace SceneCode.Swift

/-- The resource represents a scene value, at some precision. -/
def IsRepresentation {α β : Type} (field : Representation .scene resources → α → β)
    (resource : β) : Prop :=
  ∃ precision value, field (representation precision) value = resource

/-! ## The resources of a command -/

def TransformRepresented : Transform Literal (Affine Literal) → Prop
  | .matrix m => IsRepresentation Representation.matrix m
  | .translate dx dy =>
    IsRepresentation Representation.scalar dx ∧ IsRepresentation Representation.scalar dy
  | .scale sx sy =>
    IsRepresentation Representation.scalar sx ∧ IsRepresentation Representation.scalar sy
  | .rotate angle => IsRepresentation Representation.scalar angle

def SettingRepresented : DrawingSetting resources → Prop
  | .fill color => IsRepresentation Representation.color color
  | .fillPattern pattern => IsRepresentation Representation.rect pattern.tile
  | .stroke color => IsRepresentation Representation.color color
  | .lineWidth width => IsRepresentation Representation.scalar width
  | .lineCap cap => IsRepresentation Representation.lineCap cap
  | .lineJoin join => IsRepresentation Representation.lineJoin join
  | .miterLimit limit => IsRepresentation Representation.scalar limit
  | .clip path rule =>
    IsRepresentation Representation.path path ∧ IsRepresentation Representation.fillRule rule
  | .clipMask mask frame =>
    IsRepresentation Representation.size mask.size ∧ IsRepresentation Representation.rect frame
  | .alpha value => IsRepresentation Representation.scalar value
  | .blendMode mode => IsRepresentation Representation.blendMode mode

def MarkRepresented : Mark resources → Prop
  | .stroke path => IsRepresentation Representation.path path
  | .fill path rule =>
    IsRepresentation Representation.path path ∧ IsRepresentation Representation.fillRule rule
  | .image picture frame =>
    IsRepresentation Representation.image picture ∧ IsRepresentation Representation.rect frame
  | .linearGradient gradient start stop =>
    IsRepresentation Representation.gradient gradient ∧
      IsRepresentation Representation.point start ∧ IsRepresentation Representation.point stop
  | .radialGradient gradient startCenter startRadius endCenter endRadius =>
    IsRepresentation Representation.gradient gradient ∧
      IsRepresentation Representation.point startCenter ∧
      IsRepresentation Representation.scalar startRadius ∧
      IsRepresentation Representation.point endCenter ∧
      IsRepresentation Representation.scalar endRadius

/-- The resources of the command itself, the tile of its pattern and the size of its mask
    included, represent scene values. -/
def CommandRepresented : DrawingCommand resources → Prop
  | .push _ => True
  | .pop _ => True
  | .transform step => TransformRepresented step
  | .set setting => SettingRepresented setting
  | .mark mark => MarkRepresented mark

/-- All resources of the command and of the commands inside it represent scene values. -/
abbrev Represented : DrawingCommand resources → Prop :=
  DrawingCommand.Everywhere CommandRepresented

/-! ## Converted streams -/

@[simp]
theorem isRepresentation_representation {α β : Type}
    (field : Representation .scene resources → α → β) (precision : Nat) (value : α) :
    IsRepresentation field (field (representation precision) value) :=
  ⟨precision, value, rfl⟩

/-- Whatever command of a scene is converted, all its resources represent scene values. -/
theorem commandRepresented_map (precision : Nat) (c : DrawingCommand .scene) :
    CommandRepresented (DrawingCommand.map (representation precision) c) := by
  match c with
  | .push _ => trivial
  | .pop _ => trivial
  | .transform step =>
    cases step <;>
      simp [CommandRepresented, TransformRepresented, DrawingCommand.map, Transform.map]
  | .set (.fillPattern (.of tile _)) =>
    exact isRepresentation_representation Representation.rect precision tile
  | .set (.clipMask (.of _ size) frame) =>
    exact ⟨isRepresentation_representation Representation.size precision size,
      isRepresentation_representation Representation.rect precision frame⟩
  | .set (.fill _) | .set (.stroke _) | .set (.lineWidth _) | .set (.lineCap _)
  | .set (.lineJoin _) | .set (.miterLimit _) | .set (.clip _ _) | .set (.alpha _)
  | .set (.blendMode _) =>
    simp [CommandRepresented, SettingRepresented, DrawingCommand.map, DrawingSetting.map]
  | .mark mark =>
    cases mark <;> simp [CommandRepresented, MarkRepresented, DrawingCommand.map, Mark.map]

/-- Every converted command represents scene values throughout, whatever the precision. -/
theorem represented_map (precision : Nat) (c : DrawingCommand .scene) :
    Represented (DrawingCommand.map (representation precision) c) := by
  induction c using DrawingCommand.nested_induction with
  | step c ih =>
    refine .intro (commandRepresented_map precision c) fun d hd => ?_
    rw [DrawingCommand.inner_map] at hd
    obtain ⟨e, he, rfl⟩ := List.mem_map.1 hd
    exact ih e he

/-- Conversion reaches all depths, so every command inside represents scene values too. -/
theorem represented_of_mem_map (precision : Nat) (d : Drawing .scene) :
    ∀ c ∈ Drawing.map (representation precision) d, Represented c := by
  intro c hc
  rw [Drawing.map_eq] at hc
  obtain ⟨e, _, rfl⟩ := List.mem_map.1 hc
  exact represented_map precision e

/-- A badge with a striped ground and a gray outline, which fades out to the right. -/
def badge (precision : Nat) : Drawing resources :=
  let frame : Rect Single := ⟨⟨0, 0⟩, ⟨8, 8⟩⟩
  let stripes : Pattern .scene :=
    .of ⟨⟨0, 0⟩, ⟨4, 1⟩⟩
      [.set (.fill (Color.opaqueRgb 0 0 0)), .mark (.fill (.ellipse frame) .nonZero)]
  let fading : Mask .scene :=
    .of [.mark (.linearGradient ⟨[⟨0, .gray 1 1⟩, ⟨1, .clear⟩]⟩ ⟨0, 0⟩ ⟨8, 0⟩)] frame.size
  Drawing.map (representation precision)
    [.set (.clipMask fading frame), .set (.fillPattern stripes),
      .mark (.fill (.ellipse frame) .evenOdd), .set (.stroke (.gray (1 / 2) 1)),
      .transform (.matrix ⟨1, 0, 0, 1, 0, 0⟩), .mark (.stroke (.ellipse frame))]

/-- The badge is converted from a scene. -/
theorem represented_of_mem_badge (precision : Nat) : ∀ c ∈ badge precision, Represented c :=
  represented_of_mem_map precision _

/-! ## Gradients -/

/-- The colours of a gradient that represents a scene value are mixed colours. -/
theorem IsRepresentation.space_eq_rgb {gradient : Gradient}
    (h : IsRepresentation Representation.gradient gradient) :
    ∀ color ∈ gradient.colors, color.space = .rgb := by
  obtain ⟨precision, value, rfl⟩ := h
  intro color hcolor
  obtain ⟨stop, _, rfl⟩ := List.mem_map.1 hcolor
  rfl

end SceneCode.Swift
