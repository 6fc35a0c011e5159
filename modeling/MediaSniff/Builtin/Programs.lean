/-
# MediaSniff.Builtin.Programs — programs in the built-in database

Executables, libraries and fonts.
-/
import MediaSniff.Descriptor

set_option autoImplicit false

namespace MediaSniff.Builtin

/-- The entries of these types, in the order of their numbers. -/
def programs : List Descriptor.Entry := [
    { name := "application/x-executable"
      comment := "executable"
      magic := [
        { priority := some 40,
          tests := [
            { offset := "0",
              kind := "string",
              value := "\\177ELF",
              children := [
                { offset := "5",
                  kind := "byte",
                  value := "1",
                  children := [{ offset := "16", kind := "little16", value := "2" }] },
                { offset := "5",
                  kind := "byte",
                  value := "2",
                  children := [{ offset := "16", kind := "big16", value := "2" }] }] }] }] },
    { name := "application/x-sharedlib"
      comment := "shared library"
      globs := [{ pattern := "*.so" }]
      magic := [
        { tests := [
            { offset := "0",
              kind := "string",
              value := "\\177ELF",
              children := [
                { offset := "5",
                  kind := "byte",
                  value := "1",
                  children := [{ offset := "16", kind := "little16", value := "3" }] },
                { offset := "5",
                  kind := "byte",
                  value := "2",
                  children := [{ offset := "16", kind := "big16", value := "3" }] }] }] }] },
    { name := "application/x-core"
      comment := "program crash data"
      globs := [{ pattern := "core", caseSensitive := true }]
      magic := [
        { tests := [
            { offset := "0",
              kind := "string",
              value := "\\177ELF",
              children := [
                { offset := "5",
                  kind := "byte",
                  value := "1",
                  children := [{ offset := "16", kind := "little16", value := "4" }] },
                { offset := "5",
                  kind := "byte",
                  value := "2",
                  children := [{ offset := "16", kind := "big16", value := "4" }] }] }] }] },
    { name := "application/x-msdownload"
      comment := "Windows executable"
      aliases := ["application/x-ms-dos-executable", "application/x-dosexec"]
      globs := [{ pattern := "*.exe" }]
      magic := [
        { priority := some 40,
          tests := [{ offset := "0", kind := "string", value := "MZ" }] }] },
    { name := "application/x-java"
      comment := "Java class"
      aliases := ["application/x-java-vm"]
      globs := [{ pattern := "*.class" }]
      magic := [
        { priority := some 50,
          tests := [{ offset := "0", kind := "big32", value := "0xcafebabe" }] }] },
    { name := "font/ttf"
      comment := "TrueType font"
      aliases := ["application/x-font-ttf"]
      globs := [{ pattern := "*.ttf" }]
      magic := [
        { priority := some 50,
          tests := [
            { offset := "0", kind := "string", value := "\\000\\001\\000\\000\\000" }] }] },
    { name := "font/woff"
      comment := "WOFF font"
      acronym := some "WOFF"
      expandedAcronym := some "Web Open Font Format"
      globs := [{ pattern := "*.woff" }]
      magic := [
        { priority := some 50,
          tests := [{ offset := "0", kind := "string", value := "wOFF" }] }] },
    { name := "font/woff2"
      comment := "WOFF2 font"
      globs := [{ pattern := "*.woff2" }]
      magic := [
        { priority := some 50,
          tests := [{ offset := "0", kind := "string", value := "wOF2" }] }] }]

end MediaSniff.Builtin
