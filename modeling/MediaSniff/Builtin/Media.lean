/-
# MediaSniff.Builtin.Media — media in the built-in database

Images, sound and video.
-/
import MediaSniff.Descriptor

set_option autoImplicit false

namespace MediaSniff.Builtin

/-- The entries of these types, in the order of their numbers. -/
def media : List Descriptor.Entry := [
    { name := "image/png"
      comment := "PNG image"
      globs := [{ pattern := "*.png" }]
      magic := [
        { priority := some 50,
          tests := [{ offset := "0", kind := "string", value := "\\x89PNG" }] }] },
    { name := "image/jpeg"
      comment := "JPEG image"
      acronym := some "JPEG"
      expandedAcronym := some "Joint Photographic Experts Group"
      aliases := ["image/pjpeg"]
      globs := [
        { pattern := "*.jpg" },
        { pattern := "*.jpeg" },
        { pattern := "*.jpe" }]
      magic := [
        { priority := some 50,
          tests := [{ offset := "0", kind := "string", value := "\\377\\330\\377" }] }] },
    { name := "image/gif"
      comment := "GIF image"
      globs := [{ pattern := "*.gif" }]
      magic := [
        { priority := some 50,
          tests := [{ offset := "0", kind := "string", value := "GIF8" }] }] },
    { name := "image/bmp"
      comment := "Windows BMP image"
      aliases := ["image/x-bmp", "image/x-MS-bmp"]
      globs := [{ pattern := "*.bmp" }]
      magic := [
        { priority := some 40,
          tests := [
            { offset := "0",
              kind := "string",
              value := "BM",
              children := [
                { offset := "14", kind := "byte", value := "12" },
                { offset := "14", kind := "byte", value := "64" },
                { offset := "14", kind := "byte", value := "40" }] }] }] },
    { name := "image/tiff"
      comment := "TIFF image"
      acronym := some "TIFF"
      expandedAcronym := some "Tagged Image File Format"
      globs := [{ pattern := "*.tif" }, { pattern := "*.tiff" }]
      magic := [
        { priority := some 50,
          tests := [
            { offset := "0", kind := "string", value := "MM\\x00*" },
            { offset := "0", kind := "string", value := "II*\\x00" }] }] },
    { name := "image/webp"
      comment := "WebP image"
      globs := [{ pattern := "*.webp" }]
      magic := [
        { priority := some 50,
          tests := [
            { offset := "0",
              kind := "string",
              value := "RIFF",
              children := [{ offset := "8", kind := "string", value := "WEBP" }] }] }] },
    { name := "image/x-xcf"
      comment := "GIMP image"
      globs := [{ pattern := "*.xcf" }]
      magic := [
        { priority := some 50,
          tests := [{ offset := "0", kind := "string", value := "gimp xcf " }] }] },
    { name := "audio/mpeg"
      comment := "MP3 audio"
      aliases := ["audio/x-mp3", "audio/x-mpeg"]
      globs := [{ pattern := "*.mp3" }, { pattern := "*.mpga" }]
      magic := [
        { priority := some 50,
          tests := [{ offset := "0", kind := "string", value := "ID3" }] },
        { priority := some 20,
          tests := [
            { offset := "0", kind := "big16", value := "0xfffb" },
            { offset := "0", kind := "big16", value := "0xffe0", mask := some "0xffe6" }] }] },
    { name := "audio/x-wav"
      comment := "WAV audio"
      aliases := ["audio/wav", "audio/vnd.wave"]
      globs := [{ pattern := "*.wav" }]
      magic := [
        { priority := some 50,
          tests := [
            { offset := "0",
              kind := "string",
              value := "RIFF",
              children := [{ offset := "8", kind := "string", value := "WAVE" }] }] }] },
    { name := "video/x-msvideo"
      comment := "AVI video"
      acronym := some "AVI"
      expandedAcronym := some "Audio Video Interleave"
      aliases := ["video/avi", "video/msvideo"]
      globs := [{ pattern := "*.avi" }]
      magic := [
        { priority := some 50,
          tests := [
            { offset := "0",
              kind := "string",
              value := "RIFF",
              children := [{ offset := "8", kind := "string", value := "AVI " }] }] }] },
    { name := "application/ogg"
      comment := "Ogg multimedia file"
      globs := [{ pattern := "*.ogx" }]
      magic := [
        { priority := some 40,
          tests := [{ offset := "0", kind := "string", value := "OggS" }] }] },
    { name := "audio/ogg"
      comment := "Ogg audio"
      aliases := ["audio/x-ogg"]
      subClassOf := ["application/ogg"]
      globs := [
        { pattern := "*.oga" },
        { pattern := "*.ogg" },
        { pattern := "*.opus" }]
      magic := [
        { priority := some 50,
          tests := [
            { offset := "0",
              kind := "string",
              value := "OggS",
              children := [
                { offset := "28", kind := "string", value := "\\x01vorbis" },
                { offset := "28", kind := "string", value := "OpusHead" },
                { offset := "28", kind := "string", value := "\\x7fFLAC" }] }] }] },
    { name := "audio/flac"
      comment := "FLAC audio"
      aliases := ["audio/x-flac"]
      globs := [{ pattern := "*.flac" }]
      magic := [
        { priority := some 50,
          tests := [{ offset := "0", kind := "string", value := "fLaC" }] }] },
    { name := "video/mp4"
      comment := "MPEG-4 video"
      aliases := ["video/x-m4v"]
      globs := [{ pattern := "*.mp4" }, { pattern := "*.m4v" }]
      magic := [
        { priority := some 50,
          tests := [
            { offset := "4", kind := "string", value := "ftypisom" },
            { offset := "4", kind := "string", value := "ftypmp42" },
            { offset := "4", kind := "string", value := "ftypmp41" },
            { offset := "4", kind := "string", value := "ftypM4V " },
            { offset := "4", kind := "string", value := "ftypavc1" }] }] },
    { name := "video/x-matroska"
      comment := "Matroska video"
      globs := [{ pattern := "*.mkv" }]
      magic := [
        { priority := some 50,
          tests := [
            { offset := "0",
              kind := "big32",
              value := "0x1a45dfa3",
              children := [{ offset := "5:65", kind := "string", value := "matroska" }] }] }] },
    { name := "video/webm"
      comment := "WebM video"
      globs := [{ pattern := "*.webm" }]
      magic := [
        { priority := some 50,
          tests := [
            { offset := "0",
              kind := "big32",
              value := "0x1a45dfa3",
              children := [{ offset := "5:65", kind := "string", value := "webm" }] }] }] }]

end MediaSniff.Builtin
