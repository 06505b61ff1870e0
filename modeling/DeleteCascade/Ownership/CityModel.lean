import DeleteCascade.Schema.Ownership
/-!
# Ownership — the city model

What is known of the tables of the core city model without being told.
Geometry is owned through whichever column refers to it, so its records
name no link.
-/

namespace DeleteCascade

/-- The ownership records of the core city model. -/
def cityModelRecords : List OwnershipRecord := [
  ⟨"cityobject_genericattrib", "cityobject", some "cityobject_id", .composition⟩,
  ⟨"cityobject_genericattrib", "cityobject_genericattrib", some "parent_genattrib_id",
    .composition⟩,
  ⟨"external_reference", "cityobject", some "cityobject_id", .composition⟩,
  ⟨"appearance", "cityobject", some "cityobject_id", .composition⟩,
  ⟨"surface_data", "appearance", some "appear_to_surface_data", .aggregation⟩,
  ⟨"textureparam", "surface_data", some "surface_data_id", .composition⟩,
  ⟨"tex_image", "surface_data", some "tex_image_id", .aggregation⟩,
  ⟨"surface_geometry", "surface_geometry", some "parent_id", .composition⟩,
  ⟨"surface_geometry", "cityobject", none, .composition⟩,
  ⟨"surface_geometry", "building", none, .composition⟩,
  ⟨"surface_geometry", "building_installation", none, .composition⟩,
  ⟨"surface_geometry", "thematic_surface", none, .composition⟩,
  ⟨"surface_geometry", "opening", none, .composition⟩,
  ⟨"surface_geometry", "room", none, .composition⟩,
  ⟨"surface_geometry", "building_furniture", none, .composition⟩,
  ⟨"surface_geometry", "implicit_geometry", none, .composition⟩,
  ⟨"building", "building", some "building_parent_id", .composition⟩,
  ⟨"building_installation", "building", some "building_id", .composition⟩,
  ⟨"building_installation", "room", some "room_id", .composition⟩,
  ⟨"thematic_surface", "building", some "building_id", .composition⟩,
  ⟨"thematic_surface", "room", some "room_id", .composition⟩,
  ⟨"thematic_surface", "building_installation", some "building_installation_id", .composition⟩,
  ⟨"opening", "thematic_surface", some "opening_to_them_surface", .composition⟩,
  ⟨"room", "building", some "building_id", .composition⟩,
  ⟨"building_furniture", "room", some "room_id", .composition⟩,
  ⟨"address", "building", some "address_to_building", .aggregation⟩,
  ⟨"address", "opening", some "address_id", .aggregation⟩,
  ⟨"implicit_geometry", "building_installation", none, .aggregation⟩,
  ⟨"implicit_geometry", "opening", none, .aggregation⟩,
  ⟨"implicit_geometry", "building_furniture", none, .aggregation⟩]

end DeleteCascade
