import Bindery.Interface
import Bindery.Proofs.Json.Reader

/-!
# Descriptions that are written and read

Each kind of item is read from the object that it is written as (`reads_struct` and the like), so an
interface is read back from its text, whatever its names, types, descriptions and values
(`read_write`).
-/

set_option autoImplicit false
set_option relaxedAutoImplicit false

namespace Bindery.Interface

open Json

theorem reads_field (field : Field) : Reads Field.reader field field.toJson :=
  reads_record "struct Field" _
    (.field (reads_text _) <| .field (reads_text _) <| .field (reads_text _) .done) (by decide)

theorem reads_struct (struct : Struct) : Reads Struct.reader struct struct.toJson :=
  reads_record "struct Struct" _
    (.field (reads_text _) <| .field (reads_text _) <|
      .field (reads_list fun field _ ↦ reads_field field) .done) (by decide)

theorem reads_alias (definition : Alias) : Reads Alias.reader definition definition.toJson :=
  reads_record "struct Alias" _
    (.field (reads_text _) <| .field (reads_text _) <| .field (reads_text _) .done) (by decide)

theorem reads_param (param : Param) : Reads Param.reader param param.toJson :=
  reads_record "struct Param" _ (.field (reads_text _) <| .field (reads_text _) .done) (by decide)

theorem reads_callback (callback : Callback) :
    Reads Callback.reader callback callback.toJson :=
  reads_record "struct Callback" _
    (.field (reads_text _) <| .field (reads_text _) <|
      .field (reads_list fun param _ ↦ reads_param param) <| .field (reads_text _) .done)
    (by decide)

theorem reads_enumerator (enumerator : Enumerator) :
    Reads Enumerator.reader enumerator enumerator.toJson :=
  reads_record "struct EnumValue" _
    (.field (reads_text _) <| .field (reads_integer _) <| .field (reads_text _) .done) (by decide)

theorem reads_enum (enum : Enum) : Reads Enum.reader enum enum.toJson :=
  reads_record "struct Enum" _
    (.field (reads_text _) <| .field (reads_text _) <|
      .field (reads_list fun enumerator _ ↦ reads_enumerator enumerator) .done) (by decide)

theorem reads_function (function : Function) :
    Reads Function.reader function function.toJson :=
  reads_record "struct Function" _
    (.field (reads_text _) <| .field (reads_text _) <|
      .field (reads_list fun param _ ↦ reads_param param) <| .field (reads_text _) .done)
    (by decide)

theorem reads_interface (interface : Interface) : Reads reader interface interface.toJson :=
  reads_record "struct ApiDescription" _
    (.field (reads_list fun struct _ ↦ reads_struct struct) <|
      .field (reads_list fun definition _ ↦ reads_alias definition) <|
      .field (reads_list fun callback _ ↦ reads_callback callback) <|
      .field (reads_list fun enum _ ↦ reads_enum enum) <|
      .field (reads_list fun function _ ↦ reads_function function) .done) (by decide)

/-- An interface is read back from its text. -/
theorem read_write (interface : Interface) : read interface.write = .ok interface := by
  rw [read, write, String.toList_ofList]
  exact document_write (reads_interface interface)

end Bindery.Interface
